import VerdantBond.Lib.EditDistance
import VerdantBond.Lib.Utf16

set_option autoImplicit false

/-! # levenshteinDistance

The function keeps two rows of the table of distances of prefixes. A row is written from the left, over
what is left there of the row before the last, and reads only what this round has written and the last
row; then the two change places. So after round `i` the last row holds the distances of the first `i`
units (`holdsRow_rounds`), and the function returns the least number of single-unit edits
(`levenshtein_isLeast`).
-/

namespace VerdantBond

open List

/-! ## The function -/

/-- The loop that fills the first row. -/
def firstRow (n : Nat) : List Nat :=
  (List.range (n + 1)).foldl (fun prevRow j => prevRow.set j j) (List.replicate (n + 1) 0)

/-- The body of the inner loop, for `charA = a.charCodeAt(i - 1)`. An entry of `new Array` is taken to
be 0 until it is written; none is read before. -/
def fillEntry (a b : JsString) (i : Nat) (prevRow currRow : List Nat) (j : Nat) : List Nat :=
  let cost := if a[i - 1]? = b[j - 1]? then 0 else 1
  currRow.set j (min (currRow.getD (j - 1) 0 + 1)
    (min (prevRow.getD j 0 + 1) (prevRow.getD (j - 1) 0 + cost)))

def fillRow (a b : JsString) (i : Nat) (prevRow currRow : List Nat) : List Nat :=
  (List.range' 1 b.length).foldl (fillEntry a b i prevRow) (currRow.set 0 i)

structure EditRows where
  prevRow : List Nat
  currRow : List Nat

/-- One round of the outer loop; at its end the rows change places. -/
def editRound (a b : JsString) (rows : EditRows) (i : Nat) : EditRows :=
  ⟨fillRow a b i rows.prevRow rows.currRow, rows.prevRow⟩

def levenshteinDistance (a b : JsString) : Nat :=
  if a = b then 0
  else if a.length = 0 then b.length
  else if b.length = 0 then a.length
  else
    let rows := (List.range' 1 a.length).foldl (editRound a b)
      ⟨firstRow b.length, List.replicate (b.length + 1) 0⟩
    rows.prevRow.getD b.length 0

/-! ## The table -/

/-- The distance of the first `i` and the first `j` units. -/
def prefixDist (a b : JsString) (i j : Nat) : Nat :=
  editDist (a.take i).reverse (b.take j).reverse

variable {j i : Nat} {a b : JsString}

theorem prefixDist_zero_left (a b : JsString) (hj : j ≤ b.length) : prefixDist a b 0 j = j := by
  simp [prefixDist, hj]

theorem prefixDist_zero_right (a b : JsString) (hi : i ≤ a.length) : prefixDist a b i 0 = i := by
  simp [prefixDist, hi]

theorem reverse_take_succ {s : JsString} (hi : i < s.length) :
    (s.take (i + 1)).reverse = s[i] :: (s.take i).reverse := by
  rw [take_succ_eq_append_getElem hi, reverse_append]
  rfl

/-- The recurrence of the table. -/
theorem prefixDist_succ_succ (a b : JsString) (hi : i < a.length) (hj : j < b.length) :
    prefixDist a b (i + 1) (j + 1) =
      min (prefixDist a b (i + 1) j + 1)
        (min (prefixDist a b i (j + 1) + 1)
          (prefixDist a b i j + if a[i]? = b[j]? then 0 else 1)) := by
  have hsame : a[i]? = b[j]? ↔ a[i] = b[j] := by
    rw [getElem?_eq_getElem hi, getElem?_eq_getElem hj, Option.some.injEq]
  unfold prefixDist
  simp only [reverse_take_succ hi, reverse_take_succ hj, editDist_cons_cons, hsame]

/-! ## The rows -/

/-- A row that holds the distances of the first `i` units, up to column `k`. -/
structure HoldsRow (a b : JsString) (i k : Nat) (row : List Nat) : Prop where
  length : row.length = b.length + 1
  entries : ∀ j ≤ k, row.getD j 0 = prefixDist a b i j

theorem HoldsRow.set {k v : Nat} {row : List Nat} (h : HoldsRow a b i k row) (hk : k < b.length)
    (hv : v = prefixDist a b i (k + 1)) : HoldsRow a b i (k + 1) (row.set (k + 1) v) := by
  refine ⟨by rw [length_set, h.length], fun j hj => ?_⟩
  rcases Nat.lt_succ_iff_lt_or_eq.mp (Nat.lt_succ_of_le hj) with hlt | rfl
  · have hne : k + 1 ≠ j := by omega
    rw [← h.entries j (by omega), getD_eq_getElem?_getD, getElem?_set_ne hne,
      getD_eq_getElem?_getD]
  · have hlen : k + 1 < row.length := by
      rw [h.length]
      omega
    rw [getD_eq_getElem?_getD, getElem?_set_self hlen, Option.getD_some, hv]

theorem holdsRow_first (a b : JsString) : HoldsRow a b 0 b.length (firstRow b.length) := by
  have hloop : ∀ k ≤ b.length + 1,
      ((range k).foldl (fun prevRow j => prevRow.set j j)
        (replicate (b.length + 1) 0)).length = b.length + 1 ∧
      ∀ j < k, ((range k).foldl (fun prevRow j => prevRow.set j j)
        (replicate (b.length + 1) 0)).getD j 0 = j := by
    intro k
    induction k with
    | zero => simp
    | succ k ih =>
        intro hk
        obtain ⟨hlen, hentries⟩ := ih (by omega)
        rw [range_succ, foldl_append]
        refine ⟨by simpa using hlen, fun j hj => ?_⟩
        rw [foldl_cons, foldl_nil, getD_eq_getElem?_getD]
        by_cases hjk : k = j
        · subst hjk
          rw [getElem?_set_self (by omega), Option.getD_some]
        · rw [getElem?_set_ne hjk, ← getD_eq_getElem?_getD]
          exact hentries j (by omega)
  obtain ⟨hlen, hentries⟩ := hloop (b.length + 1) le_rfl
  exact ⟨hlen, fun j hj => (hentries j (by omega)).trans (prefixDist_zero_left a b hj).symm⟩

/-- **A round computes the next row**, whatever stood in the buffer. -/
theorem holdsRow_fillRow (hi : i < a.length) {prevRow currRow : List Nat}
    (hprev : HoldsRow a b i b.length prevRow) (hlen : currRow.length = b.length + 1) :
    HoldsRow a b (i + 1) b.length (fillRow a b (i + 1) prevRow currRow) := by
  unfold fillRow
  suffices hloop : ∀ k ≤ b.length, HoldsRow a b (i + 1) k
      ((range' 1 k).foldl (fillEntry a b (i + 1) prevRow) (currRow.set 0 (i + 1))) from
    hloop b.length le_rfl
  intro k
  induction k with
  | zero =>
      refine fun _ => ⟨by simpa using hlen, fun j hj => ?_⟩
      rw [Nat.le_zero.mp hj, prefixDist_zero_right a b hi, range'_zero, foldl_nil,
        getD_eq_getElem?_getD, getElem?_set_self (by omega), Option.getD_some]
  | succ k ih =>
      intro hk
      have hrow := ih (by omega)
      rw [range'_1_concat, foldl_append, foldl_cons, foldl_nil, Nat.add_comm 1 k]
      refine hrow.set (by omega) ?_
      rw [Nat.add_sub_cancel, Nat.add_sub_cancel, hrow.entries k le_rfl, hprev.entries (k + 1) hk,
        hprev.entries k (by omega), prefixDist_succ_succ a b hi hk]

/-- **After `i` rounds** the last row is the row of the first `i` units. -/
theorem holdsRow_rounds (a b : JsString) (hi : i ≤ a.length) :
    let rows := (range' 1 i).foldl (editRound a b)
      ⟨firstRow b.length, replicate (b.length + 1) 0⟩
    HoldsRow a b i b.length rows.prevRow ∧ rows.currRow.length = b.length + 1 := by
  induction i with
  | zero => exact ⟨holdsRow_first a b, length_replicate⟩
  | succ i ih =>
      obtain ⟨hprev, hcurr⟩ := ih (by omega)
      rw [range'_1_concat, foldl_append, Nat.add_comm 1 i]
      exact ⟨holdsRow_fillRow hi hprev hcurr, hprev.length⟩

/-! ## The distance -/

theorem levenshteinDistance_eq (a b : JsString) :
    levenshteinDistance a b = editDist a.reverse b.reverse := by
  unfold levenshteinDistance
  split
  · rename_i hsame
    rw [hsame, editDist_self]
  · split
    · rename_i ha
      rw [length_eq_zero_iff.mp ha, reverse_nil, editDist_nil_left, length_reverse]
    · split
      · rename_i hb
        rw [length_eq_zero_iff.mp hb, reverse_nil, editDist_nil_right, length_reverse]
      · have hrow := (holdsRow_rounds a b le_rfl).1.entries b.length le_rfl
        rw [prefixDist, take_length, take_length] at hrow
        exact hrow

/-- **`levenshteinDistance` is the edit distance**: the least number of single-unit insertions,
deletions and substitutions that turn the one string into the other. -/
theorem levenshtein_isLeast (a b : JsString) :
    IsLeast {n | Edits n a b} (levenshteinDistance a b) := by
  have hleast := isLeast_editDist a.reverse b.reverse
  simp only [edits_reverse_iff] at hleast
  rw [levenshteinDistance_eq]
  exact hleast

example : levenshteinDistance (js "kitten") (js "sitting") = 3 := by decide +kernel

end VerdantBond
