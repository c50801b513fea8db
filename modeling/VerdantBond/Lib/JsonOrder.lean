import VerdantBond.Lib.JsonTree

set_option autoImplicit false
set_option linter.unusedSectionVars false

/-! # JSON values up to the order of keys

`SameJson` relates values that differ at most in the order of the properties of their objects, at any
depth. An `Arrangement` lists the properties of an object in an order that depends only on what they
are. Arranging every object of a value gives a normal form for the relation (`arrange_eq_iff`).
-/

namespace VerdantBond

variable {ν : Type}

mutual
/-- Equal up to the order of keys at every depth. -/
inductive SameJson : Json ν → Json ν → Prop
  | null : SameJson .null .null
  | bool (b : Bool) : SameJson (.bool b) (.bool b)
  | number (x : ν) : SameJson (.number x) (.number x)
  | string (s : JsString) : SameJson (.string s) (.string s)
  | array {items items' : List (Json ν)} :
      SameJsonItems items items' → SameJson (.array items) (.array items')
  | object {entries listed entries' : List (JsString × Json ν)} :
      entries.Perm listed → SameJsonEntries listed entries' →
        SameJson (.object entries) (.object entries')
inductive SameJsonItems : List (Json ν) → List (Json ν) → Prop
  | nil : SameJsonItems [] []
  | cons {v w : Json ν} {vs ws : List (Json ν)} :
      SameJson v w → SameJsonItems vs ws → SameJsonItems (v :: vs) (w :: ws)
inductive SameJsonEntries : List (JsString × Json ν) → List (JsString × Json ν) → Prop
  | nil : SameJsonEntries [] []
  | cons (key : JsString) {v w : Json ν} {es fs : List (JsString × Json ν)} :
      SameJson v w → SameJsonEntries es fs → SameJsonEntries ((key, v) :: es) ((key, w) :: fs)
end

/-- An order of properties that depends on the set of properties only. -/
structure Arrangement where
  order : {β : Type} → List (JsString × β) → List (JsString × β)
  perm : ∀ {β : Type} (o : List (JsString × β)), (order o).Perm o
  canonical : ∀ {β : Type} {o o' : List (JsString × β)}, o.Perm o' → (keysOf o).Nodup →
    order o = order o'

namespace Json

variable (a : Arrangement)

mutual
/-- Arrange every object of a value. -/
def arrange : Json ν → Json ν
  | .null => .null
  | .bool b => .bool b
  | .number x => .number x
  | .string s => .string s
  | .array items => .array (arrangeItems items)
  | .object entries => .object (a.order (arrangeEntries entries))
def arrangeItems : List (Json ν) → List (Json ν)
  | [] => []
  | v :: vs => arrange v :: arrangeItems vs
def arrangeEntries : List (JsString × Json ν) → List (JsString × Json ν)
  | [] => []
  | (key, v) :: es => (key, arrange v) :: arrangeEntries es
end

end Json

open Json List

variable (a : Arrangement)

/-! ## Entries -/

theorem arrangeEntries_eq_map (es : List (JsString × Json ν)) :
    arrangeEntries a es = es.map fun e => (e.1, arrange a e.2) := by
  induction es with
  | nil => rfl
  | cons e es ih => rw [arrangeEntries, ih, map_cons]

theorem keysOf_arrangeEntries (es : List (JsString × Json ν)) :
    keysOf (arrangeEntries a es) = keysOf es := by
  rw [arrangeEntries_eq_map, keysOf, map_map]
  rfl

variable {es fs gs : List (JsString × Json ν)}

theorem everyEntry_iff {P : ν → Prop} {K : List JsString → Prop} :
    EveryEntry P K es ↔ ∀ e ∈ es, e.2.Every P K := by
  induction es with
  | nil => simp [EveryEntry]
  | cons e es ih => simp [EveryEntry, ih]

theorem keysOf_sameEntries (h : SameJsonEntries es fs) : keysOf es = keysOf fs := by
  induction es generalizing fs with
  | nil =>
      cases h
      rfl
  | cons e es ih =>
      cases h with
      | cons key _ hrest => exact congrArg (key :: ·) (ih hrest)

/-! ## The normal form -/

mutual
/-- Related values have one normal form. -/
theorem arrange_eq_of_same : ∀ {v w : Json ν}, SameJson v w → v.Distinct → arrange a v = arrange a w
  | _, _, .null, _ => rfl
  | _, _, .bool _, _ => rfl
  | _, _, .number _, _ => rfl
  | _, _, .string _, _ => rfl
  | _, _, .array hitems, h => congrArg Json.array (arrangeItems_eq_of_same hitems h)
  | .object entries, .object entries', @SameJson.object _ _ listed _ hperm hsame, h => by
      have hlisted : EveryEntry (fun _ : ν => True) List.Nodup listed :=
        everyEntry_iff.mpr fun e he => everyEntry_iff.mp h.2 e (hperm.mem_iff.mpr he)
      have hentries := arrangeEntries_eq_of_same hsame hlisted
      have hmoved : (arrangeEntries a entries).Perm (arrangeEntries a entries') := by
        rw [← hentries, arrangeEntries_eq_map, arrangeEntries_eq_map]
        exact hperm.map _
      exact congrArg Json.object (a.canonical hmoved (keysOf_arrangeEntries a entries ▸ h.1))
theorem arrangeItems_eq_of_same : ∀ {vs ws : List (Json ν)}, SameJsonItems vs ws →
    EveryItem (fun _ => True) List.Nodup vs → arrangeItems a vs = arrangeItems a ws
  | _, _, .nil, _ => rfl
  | _, _, .cons hv hvs, h =>
      congrArg₂ cons (arrange_eq_of_same hv h.1) (arrangeItems_eq_of_same hvs h.2)
theorem arrangeEntries_eq_of_same : ∀ {es fs : List (JsString × Json ν)}, SameJsonEntries es fs →
    EveryEntry (fun _ => True) List.Nodup es → arrangeEntries a es = arrangeEntries a fs
  | _, _, .nil, _ => rfl
  | _, _, .cons key hv hes, h =>
      congrArg₂ (fun v vs => (key, v) :: vs) (arrange_eq_of_same hv h.1)
        (arrangeEntries_eq_of_same hes h.2)
end

/-- What is a permutation of arranged entries is an arrangement of permuted entries. -/
theorem exists_perm_of_arrangeEntries (h : gs.Perm (arrangeEntries a es)) :
    ∃ fs, es.Perm fs ∧ gs = arrangeEntries a fs := by
  rw [arrangeEntries_eq_map] at h
  have hmoved := congrFun (congrFun (eq_map_comp_perm fun e : JsString × Json ν =>
    (e.1, arrange a e.2)) gs) es
  obtain ⟨fs, hfs, hperm⟩ := hmoved.mpr h
  exact ⟨fs, hperm.symm, hfs.trans (arrangeEntries_eq_map a fs).symm⟩

theorem sameEntries_of_arrange_eq
    (hvalues : ∀ e ∈ fs, ∀ w, arrange a e.2 = arrange a w → SameJson e.2 w)
    (h : arrangeEntries a fs = arrangeEntries a gs) : SameJsonEntries fs gs := by
  induction fs generalizing gs with
  | nil =>
      cases gs with
      | nil => exact .nil
      | cons g gs => cases h
  | cons e fs ih =>
      cases gs with
      | nil => cases h
      | cons g gs =>
          obtain ⟨key, v⟩ := e
          obtain ⟨key', w⟩ := g
          obtain ⟨hhead, hrest⟩ := cons.inj h
          obtain ⟨rfl, hv⟩ := Prod.mk.inj hhead
          exact .cons key (hvalues (key, v) mem_cons_self w hv)
            (ih (fun d hd => hvalues d (mem_cons_of_mem _ hd)) hrest)

mutual
/-- Values with one normal form are related. -/
theorem same_of_arrange_eq : ∀ v w : Json ν, arrange a v = arrange a w → SameJson v w
  | .null, w, h => by
      cases w with
      | null => exact .null
      | _ => cases h
  | .bool b, w, h => by
      cases w with
      | bool b' =>
          cases h
          exact .bool b
      | _ => cases h
  | .number x, w, h => by
      cases w with
      | number y =>
          cases h
          exact .number x
      | _ => cases h
  | .string s, w, h => by
      cases w with
      | string t =>
          cases h
          exact .string s
      | _ => cases h
  | .array items, w, h => by
      cases w with
      | array items' => exact .array (sameItems_of_arrange_eq items items' (Json.array.inj h))
      | _ => cases h
  | .object entries, w, h => by
      cases w with
      | object entries' =>
          have horder : a.order (arrangeEntries a entries) = a.order (arrangeEntries a entries') :=
            Json.object.inj h
          have hperm : (arrangeEntries a entries').Perm (arrangeEntries a entries) :=
            ((a.perm _).symm.trans (horder ▸ List.Perm.refl _)).trans (a.perm _)
          obtain ⟨listed, hlisted, heq⟩ := exists_perm_of_arrangeEntries a hperm
          refine .object hlisted (sameEntries_of_arrange_eq a (fun e he => ?_) heq.symm)
          exact sameValues_of_arrange_eq entries e (hlisted.mem_iff.mpr he)
      | _ => cases h
theorem sameItems_of_arrange_eq : ∀ vs ws : List (Json ν), arrangeItems a vs = arrangeItems a ws →
    SameJsonItems vs ws
  | [], ws, h => by
      cases ws with
      | nil => exact .nil
      | cons w ws => cases h
  | v :: vs, ws, h => by
      cases ws with
      | nil => cases h
      | cons w ws =>
          obtain ⟨hv, hvs⟩ := cons.inj h
          exact .cons (same_of_arrange_eq v w hv) (sameItems_of_arrange_eq vs ws hvs)
theorem sameValues_of_arrange_eq : ∀ es : List (JsString × Json ν), ∀ e ∈ es, ∀ w,
    arrange a e.2 = arrange a w → SameJson e.2 w
  | (_, v) :: es, e, he, w, h => by
      rcases mem_cons.mp he with rfl | he
      · exact same_of_arrange_eq v w h
      · exact sameValues_of_arrange_eq es e he w h
end

/-- **The normal form decides the relation.** -/
theorem arrange_eq_iff {v w : Json ν} (hv : v.Distinct) : arrange a v = arrange a w ↔ SameJson v w :=
  ⟨same_of_arrange_eq a v w, fun h => arrange_eq_of_same a h hv⟩

theorem sameEntries_arrange (h : ∀ e ∈ fs, SameJson e.2 (arrange a e.2)) :
    SameJsonEntries fs (arrangeEntries a fs) := by
  induction fs with
  | nil => exact .nil
  | cons e fs ih =>
      exact .cons e.1 (h e mem_cons_self) (ih fun d hd => h d (mem_cons_of_mem _ hd))

mutual
/-- A value is related to its normal form. -/
theorem same_arrange : ∀ v : Json ν, SameJson v (arrange a v)
  | .null => .null
  | .bool b => .bool b
  | .number x => .number x
  | .string s => .string s
  | .array items => .array (sameItems_arrange items)
  | .object entries => by
      obtain ⟨listed, hlisted, heq⟩ :=
        exists_perm_of_arrangeEntries a (a.perm (arrangeEntries a entries))
      rw [arrange, heq]
      exact .object hlisted (sameEntries_arrange a fun e he =>
        sameValues_arrange entries e (hlisted.mem_iff.mpr he))
theorem sameItems_arrange : ∀ vs : List (Json ν), SameJsonItems vs (arrangeItems a vs)
  | [] => .nil
  | v :: vs => .cons (same_arrange v) (sameItems_arrange vs)
theorem sameValues_arrange : ∀ es : List (JsString × Json ν), ∀ e ∈ es, SameJson e.2 (arrange a e.2)
  | (_, v) :: es, e, he => by
      rcases mem_cons.mp he with rfl | he
      · exact same_arrange v
      · exact sameValues_arrange es e he
end

/-! ## What does not depend on the order -/

section

variable {P : ν → Prop} {K : List JsString → Prop}
  (hK : ∀ {l l' : List JsString}, l.Perm l' → K l → K l')

include hK

mutual
theorem every_of_same : ∀ {v w : Json ν}, SameJson v w → v.Every P K → w.Every P K
  | _, _, .null, h => h
  | _, _, .bool _, h => h
  | _, _, .number _, h => h
  | _, _, .string _, h => h
  | _, _, .array hitems, h => everyItem_of_same hitems h
  | .object entries, .object entries', @SameJson.object _ _ listed _ hperm hsame, h => by
      have hlisted : EveryEntry P K listed :=
        everyEntry_iff.mpr fun e he => everyEntry_iff.mp h.2 e (hperm.mem_iff.mpr he)
      refine ⟨?_, everyEntry_of_same hsame hlisted⟩
      rw [← keysOf_sameEntries hsame]
      exact hK (hperm.map _) h.1
theorem everyItem_of_same : ∀ {vs ws : List (Json ν)},
    SameJsonItems vs ws → EveryItem P K vs → EveryItem P K ws
  | _, _, .nil, h => h
  | _, _, .cons hv hvs, h => ⟨every_of_same hv h.1, everyItem_of_same hvs h.2⟩
theorem everyEntry_of_same : ∀ {es fs : List (JsString × Json ν)}, SameJsonEntries es fs →
    EveryEntry P K es → EveryEntry P K fs
  | _, _, .nil, h => h
  | _, _, .cons _ hv hes, h => ⟨every_of_same hv h.1, everyEntry_of_same hes h.2⟩
end

end

theorem distinct_arrange {v : Json ν} (h : v.Distinct) : (arrange a v).Distinct :=
  every_of_same (fun hperm => hperm.nodup_iff.mp) (same_arrange a v) h

/-! ## Sorted keys -/

/-- The properties by key, unit by unit. -/
def sortByKey {β : Type} (o : List (JsString × β)) : List (JsString × β) :=
  o.insertionSort fun e f => e.1 ≤ f.1

/-- A list of distinct keys is sorted in one way only. -/
theorem sortByKey_canonical {β : Type} {o o' : List (JsString × β)} (hperm : o.Perm o')
    (hnodup : (keysOf o).Nodup) : sortByKey o = sortByKey o' := by
  have htotal : Std.Total fun e f : JsString × β => e.1 ≤ f.1 := ⟨fun e f => le_total _ _⟩
  have htrans : IsTrans (JsString × β) fun e f => e.1 ≤ f.1 := ⟨fun e f g => le_trans⟩
  have hsorted : (sortByKey o).Perm (sortByKey o') :=
    ((perm_insertionSort _ o).trans hperm).trans (perm_insertionSort _ o').symm
  refine hsorted.eq_of_pairwise (fun e f he hf hle hge => ?_) (pairwise_insertionSort _ _)
    (pairwise_insertionSort _ _)
  -- two properties with one key are one property
  have hmem : f ∈ sortByKey o := hsorted.mem_iff.mpr hf
  exact inj_on_of_nodup_map hnodup ((perm_insertionSort _ o).mem_iff.mp he)
    ((perm_insertionSort _ o).mem_iff.mp hmem) (le_antisymm hle hge)

def byKey : Arrangement where
  order := sortByKey
  perm := fun o => List.perm_insertionSort _ o
  canonical := sortByKey_canonical

end VerdantBond
