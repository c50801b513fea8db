import VerdantBond.Lib.Json

set_option autoImplicit false

/-! # JSON values, their texts and the reader

A JSON value over any type of numbers, the text that `JSON.stringify` writes for it and the reader
`JSON.parse`. What the language knows of numbers is given by a `NumberFormat`: the numeral of a number,
if it has one, and the number a numeral stands for; a number without a numeral is written `null`. The
reader returns a value as it was written, with its numbers read back (`parse_text`).
-/

namespace VerdantBond

open List

def openBracket : CodeUnit := 91
def closeBracket : CodeUnit := 93

/-- White space between tokens. -/
def IsSpace (u : CodeUnit) : Prop := u = 32 ∨ u = 9 ∨ u = 10 ∨ u = 13

instance (u : CodeUnit) : Decidable (IsSpace u) := inferInstanceAs (Decidable (_ ∨ _))

/-! ## Values -/

/-- The properties of an object stand in the order of their creation. -/
inductive Json (ν : Type) where
  | null
  | bool (b : Bool)
  | number (x : ν)
  | string (s : JsString)
  | array (items : List (Json ν))
  | object (entries : List (JsString × Json ν))

structure NumberFormat (ν : Type) where
  numeral : ν → Option Numeral
  ofNumeral : Numeral → ν

/-- A number as it is read back. -/
def NumberFormat.reread {ν : Type} (F : NumberFormat ν) (x : ν) : Json ν :=
  match F.numeral x with
  | some t => .number (F.ofNumeral t)
  | none => .null

def keysOf {β : Type} (o : List (JsString × β)) : List JsString := o.map Prod.fst

/-- Create a property, or replace its value. -/
def define {β : Type} : List (JsString × β) → JsString → β → List (JsString × β)
  | [], key, value => [(key, value)]
  | e :: o, key, value => if e.1 = key then (key, value) :: o else e :: define o key value

/-- The object with these properties, created one after the other. -/
def defineAll {β : Type} (entries : List (JsString × β)) : List (JsString × β) :=
  entries.foldl (fun o e => define o e.1 e.2) []

namespace Json

variable {ν : Type}

mutual
/-- Every number satisfies `P` and the keys of every object `K`. -/
def Every (P : ν → Prop) (K : List JsString → Prop) : Json ν → Prop
  | .number x => P x
  | .array items => EveryItem P K items
  | .object entries => K (keysOf entries) ∧ EveryEntry P K entries
  | _ => True
def EveryItem (P : ν → Prop) (K : List JsString → Prop) : List (Json ν) → Prop
  | [] => True
  | v :: vs => Every P K v ∧ EveryItem P K vs
def EveryEntry (P : ν → Prop) (K : List JsString → Prop) : List (JsString × Json ν) → Prop
  | [] => True
  | (_, v) :: es => Every P K v ∧ EveryEntry P K es
end

/-- Every object has each of its keys once. -/
def Distinct (v : Json ν) : Prop := v.Every (fun _ => True) List.Nodup

mutual
/-- Replace the numbers of a value. -/
def mapNumbers (f : ν → Json ν) : Json ν → Json ν
  | .null => .null
  | .bool b => .bool b
  | .number x => f x
  | .string s => .string s
  | .array items => .array (mapItems f items)
  | .object entries => .object (mapEntries f entries)
def mapItems (f : ν → Json ν) : List (Json ν) → List (Json ν)
  | [] => []
  | v :: vs => mapNumbers f v :: mapItems f vs
def mapEntries (f : ν → Json ν) : List (JsString × Json ν) → List (JsString × Json ν)
  | [] => []
  | (key, v) :: es => (key, mapNumbers f v) :: mapEntries f es
end

/-! ## The writer -/

mutual
/-- `JSON.stringify`, of a value whose objects list their properties in the order they stand in. -/
def text (F : NumberFormat ν) : Json ν → JsString
  | .null => js "null"
  | .bool true => js "true"
  | .bool false => js "false"
  | .number x => ((F.numeral x).map Numeral.text).getD (js "null")
  | .string s => quoted s
  | .array [] => [openBracket, closeBracket]
  | .array (v :: vs) => openBracket :: (text F v ++ itemsText F vs)
  | .object [] => [openBrace, closeBrace]
  | .object ((key, v) :: es) => openBrace :: (quoted key ++ colon :: (text F v ++ entriesText F es))
/-- The rest of an array, after an item. -/
def itemsText (F : NumberFormat ν) : List (Json ν) → JsString
  | [] => [closeBracket]
  | v :: vs => comma :: (text F v ++ itemsText F vs)
/-- The rest of an object, after a property. -/
def entriesText (F : NumberFormat ν) : List (JsString × Json ν) → JsString
  | [] => [closeBrace]
  | (key, v) :: es => comma :: (quoted key ++ colon :: (text F v ++ entriesText F es))
end

/-! ## The reader -/

def skipSpace (s : JsString) : JsString := s.dropWhile IsSpace

/-- What follows a word, if the text starts with it. -/
def afterWord (word s : JsString) : Option JsString :=
  if s.take word.length = word then some (s.drop word.length) else none

/-- Read the word a value starts with, or a numeral. -/
def readScalar (F : NumberFormat ν) (s : JsString) : Option (Json ν × JsString) :=
  match afterWord (js "null") s, afterWord (js "true") s, afterWord (js "false") s with
  | some rest, _, _ => some (.null, rest)
  | none, some rest, _ => some (.bool true, rest)
  | none, none, some rest => some (.bool false, rest)
  | none, none, none =>
      if h : isNumeral (s.takeWhile IsNumberUnit) = true then
        some (.number (F.ofNumeral ⟨s.takeWhile IsNumberUnit, h⟩), s.dropWhile IsNumberUnit)
      else none

/-- Read the key of a property, and the colon. -/
def readKey (s : JsString) : Option (JsString × JsString) :=
  match skipSpace s with
  | mark :: s =>
      if mark = quoteMark then
        match readString s with
        | some (key, rest) =>
            match skipSpace rest with
            | mark :: rest => if mark = colon then some (key, rest) else none
            | [] => none
        | none => none
      else none
  | [] => none

mutual
/-- Read a value. `fuel` bounds the nesting; the length of the text is enough. -/
def readValue (F : NumberFormat ν) : Nat → JsString → Option (Json ν × JsString)
  | 0, _ => none
  | fuel + 1, s =>
      match skipSpace s with
      | [] => none
      | u :: s =>
          if u = quoteMark then (readString s).map fun (units, rest) => (.string units, rest)
          else if u = openBracket then
            match skipSpace s with
            | [] => none
            | v :: rest =>
                if v = closeBracket then some (.array [], rest)
                else
                  match readValue F fuel s with
                  | some (item, rest) =>
                      (readItems F fuel rest).map fun (items, rest) => (.array (item :: items), rest)
                  | none => none
          else if u = openBrace then
            match skipSpace s with
            | [] => none
            | v :: rest =>
                if v = closeBrace then some (.object [], rest)
                else
                  match readKey s with
                  | some (key, rest) =>
                      match readValue F fuel rest with
                      | some (value, rest) =>
                          (readEntries F fuel rest).map fun (entries, rest) =>
                            (.object (defineAll ((key, value) :: entries)), rest)
                      | none => none
                  | none => none
          else readScalar F (u :: s)
/-- Read the rest of an array, after an item. -/
def readItems (F : NumberFormat ν) : Nat → JsString → Option (List (Json ν) × JsString)
  | 0, _ => none
  | fuel + 1, s =>
      match skipSpace s with
      | [] => none
      | u :: s =>
          if u = closeBracket then some ([], s)
          else if u = comma then
            match readValue F fuel s with
            | some (item, rest) =>
                (readItems F fuel rest).map fun (items, rest) => (item :: items, rest)
            | none => none
          else none
/-- Read the rest of an object, after a property. -/
def readEntries (F : NumberFormat ν) : Nat → JsString → Option (List (JsString × Json ν) × JsString)
  | 0, _ => none
  | fuel + 1, s =>
      match skipSpace s with
      | [] => none
      | u :: s =>
          if u = closeBrace then some ([], s)
          else if u = comma then
            match readKey s with
            | some (key, rest) =>
                match readValue F fuel rest with
                | some (value, rest) =>
                    (readEntries F fuel rest).map fun (entries, rest) => ((key, value) :: entries, rest)
                | none => none
            | none => none
          else none
end

/-- `JSON.parse`: one value, with white space around it. -/
def parse (F : NumberFormat ν) (s : JsString) : Option (Json ν) :=
  match readValue F (s.length + 1) s with
  | some (v, rest) => if skipSpace rest = [] then some v else none
  | none => none

end Json

/-! ## Objects -/

variable {β : Type}

theorem define_of_new {o : List (JsString × β)} {key : JsString} (h : key ∉ keysOf o) (value : β) :
    define o key value = o ++ [(key, value)] := by
  induction o with
  | nil => rfl
  | cons e o ih =>
      have he : e.1 ≠ key := fun heq => h (heq ▸ mem_cons_self)
      have ho : key ∉ keysOf o := fun hmem => h (mem_cons_of_mem _ hmem)
      simp only [define, if_neg he, ih ho, cons_append]

/-- Entries with distinct keys are the object they create. -/
theorem defineAll_of_nodup {entries : List (JsString × β)} (h : (keysOf entries).Nodup) :
    defineAll entries = entries := by
  have hfold : ∀ (entries o : List (JsString × β)), (keysOf (o ++ entries)).Nodup →
      entries.foldl (fun o e => define o e.1 e.2) o = o ++ entries := by
    intro entries
    induction entries with
    | nil =>
        intro o _
        rw [foldl_nil, append_nil]
    | cons e entries ih =>
        intro o ho
        have hsplit : o ++ e :: entries = (o ++ [e]) ++ entries := by simp
        have hnew : e.1 ∉ keysOf o := by
          intro hmem
          rw [keysOf, map_append, nodup_append] at ho
          exact ho.2.2 e.1 hmem e.1 mem_cons_self rfl
        rw [foldl_cons, define_of_new hnew, hsplit]
        exact ih _ (hsplit ▸ ho)
  exact hfold entries [] h

namespace Json

variable {ν : Type} (F : NumberFormat ν)

theorem keysOf_mapEntries (f : ν → Json ν) (es : List (JsString × Json ν)) :
    keysOf (mapEntries f es) = keysOf es := by
  induction es with
  | nil => rfl
  | cons e es ih => exact congrArg (e.1 :: ·) ih

mutual
theorem every_mono {P Q : ν → Prop} {K L : List JsString → Prop} (hP : ∀ x, P x → Q x)
    (hK : ∀ l, K l → L l) : ∀ v : Json ν, v.Every P K → v.Every Q L
  | .null, _ => trivial
  | .bool _, _ => trivial
  | .number x, h => hP x h
  | .string _, _ => trivial
  | .array items, h => everyItem_mono hP hK items h
  | .object entries, h => ⟨hK _ h.1, everyEntry_mono hP hK entries h.2⟩
theorem everyItem_mono {P Q : ν → Prop} {K L : List JsString → Prop} (hP : ∀ x, P x → Q x)
    (hK : ∀ l, K l → L l) : ∀ vs : List (Json ν), EveryItem P K vs → EveryItem Q L vs
  | [], _ => trivial
  | v :: vs, h => ⟨every_mono hP hK v h.1, everyItem_mono hP hK vs h.2⟩
theorem everyEntry_mono {P Q : ν → Prop} {K L : List JsString → Prop} (hP : ∀ x, P x → Q x)
    (hK : ∀ l, K l → L l) : ∀ es : List (JsString × Json ν), EveryEntry P K es → EveryEntry Q L es
  | [], _ => trivial
  | (_, v) :: es, h => ⟨every_mono hP hK v h.1, everyEntry_mono hP hK es h.2⟩
end

mutual
theorem every_mapNumbers {f : ν → Json ν} {P Q : ν → Prop} {K : List JsString → Prop}
    (hf : ∀ x, (f x).Every Q K) : ∀ v : Json ν, v.Every P K → (v.mapNumbers f).Every Q K
  | .null, _ => trivial
  | .bool _, _ => trivial
  | .number x, _ => hf x
  | .string _, _ => trivial
  | .array items, h => everyItem_mapItems hf items h
  | .object entries, h =>
      ⟨(keysOf_mapEntries f entries).symm ▸ h.1, everyEntry_mapEntries hf entries h.2⟩
theorem everyItem_mapItems {f : ν → Json ν} {P Q : ν → Prop} {K : List JsString → Prop}
    (hf : ∀ x, (f x).Every Q K) : ∀ vs : List (Json ν), EveryItem P K vs → EveryItem Q K (mapItems f vs)
  | [], _ => trivial
  | v :: vs, h => ⟨every_mapNumbers hf v h.1, everyItem_mapItems hf vs h.2⟩
theorem everyEntry_mapEntries {f : ν → Json ν} {P Q : ν → Prop} {K : List JsString → Prop}
    (hf : ∀ x, (f x).Every Q K) :
    ∀ es : List (JsString × Json ν), EveryEntry P K es → EveryEntry Q K (mapEntries f es)
  | [], _ => trivial
  | (_, v) :: es, h => ⟨every_mapNumbers hf v h.1, everyEntry_mapEntries hf es h.2⟩
end

/-! ## The reader on what is written -/

variable {u : CodeUnit} {rest s rest' : JsString} {fuel : Nat} {item value : Json ν}
  {items : List (Json ν)} {entries : List (JsString × Json ν)}

theorem skipSpace_cons (h : ¬ IsSpace u) (s : JsString) : skipSpace (u :: s) = u :: s := by
  simp [skipSpace, h]

theorem dropWhile_numeral (n : Numeral) (h : Delimited rest) :
    (n.text ++ rest).dropWhile IsNumberUnit = rest := by
  have hall : ∀ u ∈ n.text, decide (IsNumberUnit u) = true := fun u hu => decide_eq_true (n.units u hu)
  rw [dropWhile_append_of_pos hall]
  cases rest with
  | nil => rfl
  | cons u rest =>
      have hu : ¬ IsNumberUnit u := h u rfl
      simp [hu]

theorem afterWord_of_head {word : JsString} {a b : CodeUnit} (hword : word.head? = some a)
    (hs : s.head? = some b) (h : a ≠ b) : afterWord word s = none := by
  cases word with
  | nil => cases hword
  | cons a' word =>
      cases s with
      | nil => cases hs
      | cons b' s =>
          cases hword
          cases hs
          refine if_neg fun heq => h ?_
          have hcons : b :: s.take word.length = a :: word := heq
          exact (cons.inj hcons).1.symm

/-- A numeral starts like no other value. -/
theorem numeral_head (n : Numeral) : ∃ u s, n.text = u :: s ∧ IsNumberUnit u := by
  obtain ⟨u, s, hs⟩ := exists_cons_of_ne_nil n.ne_nil
  exact ⟨u, s, hs, n.units u (hs ▸ mem_cons_self)⟩

theorem ne_of_isNumberUnit {v : CodeUnit} (hu : IsNumberUnit u) (hv : ¬ IsNumberUnit v) : u ≠ v :=
  fun h => hv (h ▸ hu)

theorem readScalar_number (n : Numeral) (h : Delimited rest) :
    readScalar F (n.text ++ rest) = some (.number (F.ofNumeral n), rest) := by
  obtain ⟨u, s, hs, hunit⟩ := numeral_head n
  have hhead : (n.text ++ rest).head? = some u := by rw [hs]; rfl
  have hnull : afterWord (js "null") (n.text ++ rest) = none :=
    afterWord_of_head rfl hhead (ne_of_isNumberUnit hunit (by decide)).symm
  have htrue : afterWord (js "true") (n.text ++ rest) = none :=
    afterWord_of_head rfl hhead (ne_of_isNumberUnit hunit (by decide)).symm
  have hfalse : afterWord (js "false") (n.text ++ rest) = none :=
    afterWord_of_head rfl hhead (ne_of_isNumberUnit hunit (by decide)).symm
  simp only [readScalar, hnull, htrue, hfalse, n.takeWhile_append h, dropWhile_numeral n h, n.grammar,
    dif_pos]

theorem skipSpace_quoted (key rest : JsString) :
    skipSpace (quoted key ++ rest) = quoteMark :: (escape false key ++ quoteMark :: rest) := by
  rw [quoted, cons_append, skipSpace_cons (by decide)]
  simp

theorem readKey_quoted (key rest : JsString) :
    readKey (quoted key ++ colon :: rest) = some (key, rest) := by
  have hcolon : skipSpace (colon :: rest) = colon :: rest := skipSpace_cons (by decide) rest
  simp only [readKey, skipSpace_quoted, if_true, readString_escape, hcolon]

/-- A scalar is read as such: its text starts like no string, array or object. -/
theorem readValue_of_scalar (hspace : ¬ IsSpace u) (hquote : u ≠ quoteMark)
    (hbracket : u ≠ openBracket) (hbrace : u ≠ openBrace) :
    readValue F (fuel + 1) (u :: s) = readScalar F (u :: s) := by
  simp only [readValue, skipSpace_cons hspace, if_neg hquote, if_neg hbracket, if_neg hbrace]

theorem not_isSpace_of_isNumberUnit (h : IsNumberUnit u) : ¬ IsSpace u := by
  intro hspace
  rcases hspace with rfl | rfl | rfl | rfl <;> exact absurd h (by decide)

theorem readValue_number (n : Numeral) (h : Delimited rest) :
    readValue F (fuel + 1) (n.text ++ rest) = some (.number (F.ofNumeral n), rest) := by
  obtain ⟨u, s, hs, hunit⟩ := numeral_head n
  have hscalar := readScalar_number F n h
  rw [hs, cons_append] at hscalar ⊢
  rw [readValue_of_scalar F (not_isSpace_of_isNumberUnit hunit)
    (ne_of_isNumberUnit hunit (by decide)) (ne_of_isNumberUnit hunit (by decide))
    (ne_of_isNumberUnit hunit (by decide)), hscalar]

theorem delimited_itemsText (vs : List (Json ν)) (rest : JsString) :
    Delimited (itemsText F vs ++ rest) := by
  intro u hu
  cases vs with
  | nil =>
      cases hu
      decide
  | cons v vs =>
      cases hu
      decide

theorem delimited_entriesText (es : List (JsString × Json ν)) (rest : JsString) :
    Delimited (entriesText F es ++ rest) := by
  intro u hu
  cases es with
  | nil =>
      cases hu
      decide
  | cons e es =>
      cases hu
      decide

/-- No value starts with a space or a closing bracket. -/
theorem text_head (v : Json ν) : ∃ u s, text F v = u :: s ∧ ¬ IsSpace u ∧ u ≠ closeBracket := by
  cases v with
  | null => exact ⟨unit 'n', _, rfl, by decide, by decide⟩
  | bool b =>
      cases b with
      | true => exact ⟨unit 't', _, rfl, by decide, by decide⟩
      | false => exact ⟨unit 'f', _, rfl, by decide, by decide⟩
  | number x =>
      rw [text]
      cases F.numeral x with
      | none => exact ⟨unit 'n', _, rfl, by decide, by decide⟩
      | some n =>
          obtain ⟨u, s, hs, hunit⟩ := numeral_head n
          exact ⟨u, s, hs, not_isSpace_of_isNumberUnit hunit, ne_of_isNumberUnit hunit (by decide)⟩
  | string s => exact ⟨quoteMark, _, rfl, by decide, by decide⟩
  | array items =>
      cases items with
      | nil => exact ⟨openBracket, _, rfl, by decide, by decide⟩
      | cons v vs => exact ⟨openBracket, _, rfl, by decide, by decide⟩
  | object entries =>
      cases entries with
      | nil => exact ⟨openBrace, _, rfl, by decide, by decide⟩
      | cons e es => exact ⟨openBrace, _, rfl, by decide, by decide⟩

/-- An array is read item by item. -/
theorem readValue_array {t : JsString} (hs : skipSpace s = u :: t) (hu : u ≠ closeBracket)
    (hitem : readValue F fuel s = some (item, rest))
    (hitems : readItems F fuel rest = some (items, rest')) :
    readValue F (fuel + 1) (openBracket :: s) = some (.array (item :: items), rest') := by
  have hbracket : openBracket ≠ quoteMark := by decide
  simp only [readValue, skipSpace_cons (u := openBracket) (by decide), if_neg hbracket, if_true, hs,
    if_neg hu, hitem, hitems, Option.map_some]

theorem readItems_comma (hitem : readValue F fuel s = some (item, rest))
    (hitems : readItems F fuel rest = some (items, rest')) :
    readItems F (fuel + 1) (comma :: s) = some (item :: items, rest') := by
  have hcomma : comma ≠ closeBracket := by decide
  simp only [readItems, skipSpace_cons (u := comma) (by decide), if_neg hcomma, if_true, hitem, hitems,
    Option.map_some]

/-- An object is read property by property, and then created. -/
theorem readValue_object (key : JsString) (hvalue : readValue F fuel s = some (value, rest))
    (hentries : readEntries F fuel rest = some (entries, rest')) :
    readValue F (fuel + 1) (openBrace :: (quoted key ++ colon :: s)) =
      some (.object (defineAll ((key, value) :: entries)), rest') := by
  have hbrace : openBrace ≠ quoteMark ∧ openBrace ≠ openBracket := by decide
  have hclose : quoteMark ≠ closeBrace := by decide
  simp only [readValue, skipSpace_cons (u := openBrace) (by decide), if_neg hbrace.1, if_neg hbrace.2,
    if_true, skipSpace_quoted, if_neg hclose, readKey_quoted, hvalue, hentries, Option.map_some]

theorem readEntries_comma (key : JsString) (hvalue : readValue F fuel s = some (value, rest))
    (hentries : readEntries F fuel rest = some (entries, rest')) :
    readEntries F (fuel + 1) (comma :: (quoted key ++ colon :: s)) =
      some ((key, value) :: entries, rest') := by
  have hcomma : comma ≠ closeBrace := by decide
  simp only [readEntries, skipSpace_cons (u := comma) (by decide), if_neg hcomma, if_true,
    readKey_quoted, hvalue, hentries, Option.map_some]

mutual
theorem readValue_text : ∀ (v : Json ν) (fuel : Nat) (rest : JsString), v.Distinct →
    (text F v).length ≤ fuel → Delimited rest →
      readValue F fuel (text F v ++ rest) = some (v.mapNumbers F.reread, rest)
  | v, 0, rest, _, hfuel, _ => by
      obtain ⟨u, s, hs, -⟩ := text_head F v
      simp [hs] at hfuel
  | .null, fuel + 1, rest, _, _, _ => by
      rw [text]
      exact readValue_of_scalar F (by decide) (by decide) (by decide) (by decide)
  | .bool true, fuel + 1, rest, _, _, _ => by
      rw [text]
      exact readValue_of_scalar F (by decide) (by decide) (by decide) (by decide)
  | .bool false, fuel + 1, rest, _, _, _ => by
      rw [text]
      exact readValue_of_scalar F (by decide) (by decide) (by decide) (by decide)
  | .number x, fuel + 1, rest, _, _, hrest => by
      rw [text, mapNumbers, NumberFormat.reread]
      cases F.numeral x with
      | none => exact readValue_of_scalar F (by decide) (by decide) (by decide) (by decide)
      | some n => exact readValue_number F n hrest
  | .string s, fuel + 1, rest, _, _, _ => by
      simp only [text, readValue, skipSpace_quoted, if_true, readString_escape, Option.map_some,
        mapNumbers]
  | .array [], fuel + 1, rest, _, _, _ => by
      have hbracket : openBracket ≠ quoteMark := by decide
      simp only [text, cons_append, nil_append, readValue,
        skipSpace_cons (u := openBracket) (by decide), if_neg hbracket, if_true,
        skipSpace_cons (u := closeBracket) (by decide), mapNumbers, mapItems]
  | .array (v :: vs), fuel + 1, rest, hdistinct, hfuel, _ => by
      obtain ⟨u, s, hs, hspace, hclose⟩ := text_head F v
      rw [text, length_cons, length_append] at hfuel
      have hfirst : skipSpace (text F v ++ (itemsText F vs ++ rest)) =
          u :: (s ++ (itemsText F vs ++ rest)) := by
        rw [hs, cons_append, skipSpace_cons hspace]
      have hv := readValue_text v fuel (itemsText F vs ++ rest) hdistinct.1 (by omega)
        (delimited_itemsText F vs rest)
      have hvs := readItems_text vs fuel rest hdistinct.2 (by omega)
      rw [text, cons_append, append_assoc, mapNumbers, mapItems]
      exact readValue_array F hfirst hclose hv hvs
  | .object [], fuel + 1, rest, _, _, _ => by
      have hbrace : openBrace ≠ quoteMark ∧ openBrace ≠ openBracket := by decide
      simp only [text, cons_append, nil_append, readValue,
        skipSpace_cons (u := openBrace) (by decide), if_neg hbrace.1, if_neg hbrace.2, if_true,
        skipSpace_cons (u := closeBrace) (by decide), mapNumbers, mapEntries]
  | .object ((key, v) :: es), fuel + 1, rest, hdistinct, hfuel, _ => by
      rw [text, length_cons, length_append, length_cons, length_append] at hfuel
      have hv := readValue_text v fuel (entriesText F es ++ rest) hdistinct.2.1 (by omega)
        (delimited_entriesText F es rest)
      have hes := readEntries_text es fuel rest hdistinct.2.2 (by omega)
      have hnodup : (keysOf (mapEntries F.reread ((key, v) :: es))).Nodup := by
        rw [keysOf_mapEntries]
        exact hdistinct.1
      have hread := readValue_object F key hv hes
      rw [mapEntries] at hnodup
      rw [defineAll_of_nodup hnodup] at hread
      simp only [text, cons_append, append_assoc, hread, mapNumbers, mapEntries]
theorem readItems_text : ∀ (vs : List (Json ν)) (fuel : Nat) (rest : JsString),
    EveryItem (fun _ => True) List.Nodup vs → (itemsText F vs).length ≤ fuel →
      readItems F fuel (itemsText F vs ++ rest) = some (mapItems F.reread vs, rest)
  | [], 0, rest, _, hfuel => by simp [itemsText] at hfuel
  | _ :: _, 0, rest, _, hfuel => by simp [itemsText] at hfuel
  | [], fuel + 1, rest, _, _ => by
      simp only [itemsText, cons_append, nil_append, readItems,
        skipSpace_cons (u := closeBracket) (by decide), if_true, mapItems]
  | v :: vs, fuel + 1, rest, hdistinct, hfuel => by
      rw [itemsText, length_cons, length_append] at hfuel
      have hv := readValue_text v fuel (itemsText F vs ++ rest) hdistinct.1 (by omega)
        (delimited_itemsText F vs rest)
      have hvs := readItems_text vs fuel rest hdistinct.2 (by omega)
      rw [itemsText, cons_append, append_assoc, mapItems]
      exact readItems_comma F hv hvs
theorem readEntries_text : ∀ (es : List (JsString × Json ν)) (fuel : Nat) (rest : JsString),
    EveryEntry (fun _ => True) List.Nodup es → (entriesText F es).length ≤ fuel →
      readEntries F fuel (entriesText F es ++ rest) = some (mapEntries F.reread es, rest)
  | [], 0, rest, _, hfuel => by simp [entriesText] at hfuel
  | _ :: _, 0, rest, _, hfuel => by simp [entriesText] at hfuel
  | [], fuel + 1, rest, _, _ => by
      simp only [entriesText, cons_append, nil_append, readEntries,
        skipSpace_cons (u := closeBrace) (by decide), if_true, mapEntries]
  | (key, v) :: es, fuel + 1, rest, hdistinct, hfuel => by
      rw [entriesText, length_cons, length_append, length_cons, length_append] at hfuel
      have hv := readValue_text v fuel (entriesText F es ++ rest) hdistinct.1 (by omega)
        (delimited_entriesText F es rest)
      have hes := readEntries_text es fuel rest hdistinct.2 (by omega)
      have hread := readEntries_comma F key hv hes
      simp only [entriesText, cons_append, append_assoc, hread, mapEntries]
end

/-- **The reader inverts the writer**, up to what the numerals lose. -/
theorem parse_text {v : Json ν} (h : v.Distinct) :
    parse F (text F v) = some (v.mapNumbers F.reread) := by
  have hread := readValue_text F v ((text F v).length + 1) [] h (Nat.le_succ _) (by simp [Delimited])
  rw [append_nil] at hread
  simp only [parse, hread]
  rfl

mutual
/-- Numbers that are read back as they are leave the value as it is. -/
theorem mapNumbers_of_exact {K : List JsString → Prop} :
    ∀ v : Json ν, v.Every (fun x => F.reread x = .number x) K → v.mapNumbers F.reread = v
  | .null, _ => rfl
  | .bool _, _ => rfl
  | .number _, h => h
  | .string _, _ => rfl
  | .array items, h => congrArg Json.array (mapItems_of_exact items h)
  | .object entries, h => congrArg Json.object (mapEntries_of_exact entries h.2)
theorem mapItems_of_exact {K : List JsString → Prop} :
    ∀ vs : List (Json ν), EveryItem (fun x => F.reread x = .number x) K vs → mapItems F.reread vs = vs
  | [], _ => rfl
  | v :: vs, h => congrArg₂ cons (mapNumbers_of_exact v h.1) (mapItems_of_exact vs h.2)
theorem mapEntries_of_exact {K : List JsString → Prop} :
    ∀ es : List (JsString × Json ν), EveryEntry (fun x => F.reread x = .number x) K es →
      mapEntries F.reread es = es
  | [], _ => rfl
  | (key, v) :: es, h =>
      congrArg₂ (fun w ws => (key, w) :: ws) (mapNumbers_of_exact v h.1) (mapEntries_of_exact es h.2)
end

end Json

end VerdantBond
