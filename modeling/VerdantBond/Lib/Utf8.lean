import VerdantBond.Lib.Json

set_option autoImplicit false

/-! # UTF-8 of JavaScript strings

A loop over the characters of a string takes a surrogate pair in one step; the UTF-8 bytes of the string
are those of its steps, where a surrogate on its own becomes U+FFFD. Strings without such surrogates are
the UTF-16 units of characters, and are determined by their bytes (`utf8Bytes_inj`).
-/

namespace VerdantBond

/-- The steps of `for (const char of s)`. -/
def codePoints : JsString → List JsString
  | [] => []
  | [u] => [[u]]
  | u :: v :: s =>
      if IsLead u ∧ IsTrail v then [u, v] :: codePoints s else [u] :: codePoints (v :: s)

/-- The character of a step. -/
def codePointChar : JsString → Char
  | [u] => if IsLead u ∨ IsTrail u then Char.ofNat 0xFFFD else Char.ofNat u.val
  | [u, v] => Char.ofNat (0x10000 + (u.val - 0xD800) * 1024 + (v.val - 0xDC00))
  | _ => Char.ofNat 0xFFFD

/-- `Buffer.from(s, 'utf8')`. -/
def utf8Bytes (s : JsString) : List UInt8 :=
  (codePoints s).flatMap fun c => String.utf8EncodeChar (codePointChar c)

variable {u v : CodeUnit} {s t : JsString}

theorem codePoints_plain (h : ¬ IsLead u) (s : JsString) :
    codePoints (u :: s) = [u] :: codePoints s := by
  cases s with
  | nil => rfl
  | cons v s => rw [codePoints, if_neg fun hpair => h hpair.1]

theorem codePoints_pair (hu : IsLead u) (hv : IsTrail v) (s : JsString) :
    codePoints (u :: v :: s) = [u, v] :: codePoints s := by
  rw [codePoints, if_pos ⟨hu, hv⟩]

/-! ## Characters as units -/

/-- The UTF-16 units of a character. -/
def charUnits (c : Char) : JsString :=
  if c.toNat < 0x10000 then [Fin.ofNat 65536 c.toNat]
  else [Fin.ofNat 65536 (0xD800 + (c.toNat - 0x10000) / 1024),
    Fin.ofNat 65536 (0xDC00 + (c.toNat - 0x10000) % 1024)]

theorem char_toNat_valid (c : Char) :
    c.toNat < 0xD800 ∨ 0xDFFF < c.toNat ∧ c.toNat < 0x110000 := c.valid

/-- The units of a character are one step of the loop. -/
theorem codePoints_charUnits (c : Char) (s : JsString) :
    codePoints (charUnits c ++ s) = charUnits c :: codePoints s := by
  have hvalid := char_toNat_valid c
  unfold charUnits
  split
  · rename_i hsmall
    have hlead : ¬ IsLead (Fin.ofNat 65536 c.toNat) := by
      simp only [IsLead, Fin.val_ofNat, Nat.mod_eq_of_lt hsmall]
      omega
    exact codePoints_plain hlead s
  · rename_i hlarge
    have hlead : IsLead (Fin.ofNat 65536 (0xD800 + (c.toNat - 0x10000) / 1024)) := by
      simp only [IsLead, Fin.val_ofNat]
      omega
    have htrail : IsTrail (Fin.ofNat 65536 (0xDC00 + (c.toNat - 0x10000) % 1024)) := by
      simp only [IsTrail, Fin.val_ofNat]
      omega
    exact codePoints_pair hlead htrail s

theorem codePointChar_charUnits (c : Char) : codePointChar (charUnits c) = c := by
  have hvalid := char_toNat_valid c
  unfold charUnits
  split
  · rename_i hsmall
    have hplain : ¬ (IsLead (Fin.ofNat 65536 c.toNat) ∨ IsTrail (Fin.ofNat 65536 c.toNat)) := by
      simp only [IsLead, IsTrail, Fin.val_ofNat, Nat.mod_eq_of_lt hsmall]
      omega
    rw [codePointChar, if_neg hplain, Fin.val_ofNat, Nat.mod_eq_of_lt hsmall, Char.ofNat_toNat]
  · have hvalue : 0x10000 + ((0xD800 + (c.toNat - 0x10000) / 1024) % 65536 - 0xD800) * 1024 +
        ((0xDC00 + (c.toNat - 0x10000) % 1024) % 65536 - 0xDC00) = c.toNat := by omega
    rw [codePointChar, Fin.val_ofNat, Fin.val_ofNat, hvalue, Char.ofNat_toNat]

/-- A string without a surrogate on its own. -/
def IsWellFormed (s : JsString) : Prop := ∃ cs : List Char, s = cs.flatMap charUnits

theorem IsWellFormed.nil : IsWellFormed [] := ⟨[], rfl⟩

theorem IsWellFormed.append (hs : IsWellFormed s) (ht : IsWellFormed t) :
    IsWellFormed (s ++ t) := by
  obtain ⟨cs, rfl⟩ := hs
  obtain ⟨ds, rfl⟩ := ht
  exact ⟨cs ++ ds, by simp⟩

theorem char_toNat_ofNat {n : Nat} (h : n.isValidChar) : (Char.ofNat n).toNat = n := by
  rw [Char.ofNat, dif_pos h]
  rfl

theorem isWellFormed_unit (h : ¬ (IsLead u ∨ IsTrail u)) : IsWellFormed [u] := by
  have hvalid : u.val.isValidChar := by
    simp only [IsLead, IsTrail] at h
    have := u.isLt
    unfold Nat.isValidChar
    omega
  have hchar := char_toNat_ofNat hvalid
  refine ⟨[Char.ofNat u.val], ?_⟩
  rw [List.flatMap_singleton, charUnits, hchar, if_pos u.isLt, Fin.ofNat_val_eq_self]

theorem isWellFormed_pair (hu : IsLead u) (hv : IsTrail v) : IsWellFormed [u, v] := by
  set n := 0x10000 + (u.val - 0xD800) * 1024 + (v.val - 0xDC00) with hn
  simp only [IsLead, IsTrail] at hu hv
  have hvalid : n.isValidChar := by
    unfold Nat.isValidChar
    omega
  have hchar := char_toNat_ofNat hvalid
  have hlead : Fin.ofNat 65536 (0xD800 + (n - 0x10000) / 1024) = u := by
    ext
    rw [Fin.val_ofNat]
    omega
  have htrail : Fin.ofNat 65536 (0xDC00 + (n - 0x10000) % 1024) = v := by
    ext
    rw [Fin.val_ofNat]
    omega
  refine ⟨[Char.ofNat n], ?_⟩
  rw [List.flatMap_singleton, charUnits, hchar, if_neg (by omega), hlead, htrail]

theorem isWellFormed_of_plain (h : ∀ u ∈ s, ¬ (IsLead u ∨ IsTrail u)) : IsWellFormed s := by
  induction s with
  | nil => exact .nil
  | cons u s ih =>
      exact (isWellFormed_unit (h u List.mem_cons_self)).append
        (ih fun v hv => h v (List.mem_cons_of_mem _ hv))

/-! ## Quoted strings

`JSON.stringify` writes a surrogate on its own as an escape, so whatever it writes is well formed. -/

theorem isWellFormed_escapeUnit (u : CodeUnit) : IsWellFormed (escapeUnit u) := by
  unfold escapeUnit
  split
  · rename_i e he
    have hall : shortEscapes.all fun e => [backslash, e.1].all fun u => ¬ (IsLead u ∨ IsTrail u) := by
      decide
    have hletter := List.all_eq_true.mp hall e (List.mem_of_find?_eq_some he)
    exact isWellFormed_of_plain fun v hv => of_decide_eq_true (List.all_eq_true.mp hletter v hv)
  · split
    · have hdigit : ∀ n < 16, ¬ (IsLead (hexDigit n) ∨ IsTrail (hexDigit n)) := by decide
      refine isWellFormed_of_plain fun v hv => ?_
      have hlt := u.isLt
      simp only [unicodeEscape, List.mem_cons, List.not_mem_nil, or_false] at hv
      rcases hv with rfl | rfl | rfl | rfl | rfl | rfl
      · decide
      · decide
      · exact hdigit _ (by omega)
      · exact hdigit _ (by omega)
      · exact hdigit _ (by omega)
      · exact hdigit _ (by omega)
    · rename_i hplain
      exact isWellFormed_unit fun h => hplain (.inr h)

theorem isWellFormed_escape (s : JsString) : IsWellFormed (escape false s) := by
  -- a pair takes two units, so the induction is on the length
  induction hn : s.length using Nat.strong_induction_on generalizing s with
  | _ n ih =>
      cases s with
      | nil => exact .nil
      | cons u s =>
          rw [List.length_cons] at hn
          rw [escape]
          split
          · rename_i hpair
            cases s with
            | nil => cases hpair.2
            | cons v s =>
                have htrail : IsTrail v := by simpa using hpair.2
                have hlead : ¬ IsLead v := by
                  simp only [IsLead, IsTrail] at htrail ⊢
                  omega
                rw [escape, if_neg fun h => hlead h.1, if_pos ⟨rfl, htrail⟩]
                have hshort : s.length < n := by
                  simp at hn
                  omega
                exact (isWellFormed_pair hpair.1 htrail).append (ih s.length hshort s rfl)
          · rw [if_neg (by simp)]
            exact (isWellFormed_escapeUnit u).append (ih s.length (by omega) s rfl)

theorem isWellFormed_quoted (s : JsString) : IsWellFormed (quoted s) := by
  have hmark : IsWellFormed [quoteMark] := isWellFormed_unit (by decide)
  exact hmark.append ((isWellFormed_escape s).append hmark)

/-! ## The bytes -/

theorem utf8Bytes_flatMap_charUnits (cs : List Char) :
    utf8Bytes (cs.flatMap charUnits) = cs.flatMap String.utf8EncodeChar := by
  induction cs with
  | nil => rfl
  | cons c cs ih =>
      unfold utf8Bytes at ih ⊢
      rw [List.flatMap_cons, codePoints_charUnits, List.flatMap_cons, ih, codePointChar_charUnits,
        List.flatMap_cons]

/-- **The bytes determine a well-formed string.** -/
theorem utf8Bytes_inj (hs : IsWellFormed s) (ht : IsWellFormed t) (h : utf8Bytes s = utf8Bytes t) :
    s = t := by
  obtain ⟨cs, rfl⟩ := hs
  obtain ⟨ds, rfl⟩ := ht
  rw [utf8Bytes_flatMap_charUnits, utf8Bytes_flatMap_charUnits] at h
  have hbytes : cs.utf8Encode = ds.utf8Encode := congrArg List.toByteArray h
  have hstrings : String.ofList cs = String.ofList ds := by
    rw [← String.toByteArray_inj, String.toByteArray_ofList, String.toByteArray_ofList, hbytes]
  rw [String.ofList_injective hstrings]

end VerdantBond
