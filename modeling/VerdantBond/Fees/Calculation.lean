import Mathlib.Data.Rat.Defs
import VerdantBond.Lib.Utf16

set_option autoImplicit false

/-! # Fee breakdowns

`calculateFees`: every line of a schedule charges a rate in basis points, rounded half up and kept
between the line's own bounds; the total is cut at the amount. The lines keep what they charge on
their own. So the total grows with the amount whatever the schedule, and total and net always make
up the amount; the total is the sum of the lines as long as they do not charge more than there is
(`fee_breakdown`).
-/

namespace VerdantBond

/-! ## The calculation -/

/-- A rate is any number; one that is no integer is refused. -/
structure FeeScheduleLine where
  code : JsString
  label : JsString
  basisPoints : ℚ
  minFeeMinorUnits : Option Int
  maxFeeMinorUnits : Option Int

inductive FeeClamp where
  | min
  | max
  deriving DecidableEq, Repr

/-- The amounts are the numbers their texts stand for. -/
structure FeeLineItem where
  code : JsString
  label : JsString
  basisPoints : ℚ
  rawAmountMinorUnits : Int
  amountMinorUnits : Int
  clamped : Option FeeClamp
  deriving DecidableEq

structure FeeBreakdown where
  inputAmountMinorUnits : Int
  assetDecimals : ℚ
  lines : List FeeLineItem
  totalFeeMinorUnits : Int
  netAmountMinorUnits : Int
  deriving DecidableEq

/-- `InvalidFeeInputError`, with what its text quotes. -/
inductive InvalidFeeInput where
  | assetDecimals (got : ℚ)
  | notAnAmount (field : String) (got : JsString)
  | negativeAmount (field : String) (got : Int)
  | basisPoints (code : JsString) (got : ℚ)
  | duplicateCode (code : JsString)
  deriving DecidableEq

/-- `bigint | string`. -/
inductive FeeAmount where
  | bigint (n : Int)
  | text (s : JsString)

def maxAssetDecimals : ℚ := 18

/-- `Number.isInteger(x) && low <= x && x <= high`. -/
def IntegerWithin (low high x : ℚ) : Prop := x.den = 1 ∧ low ≤ x ∧ x ≤ high

instance (low high x : ℚ) : Decidable (IntegerWithin low high x) := inferInstanceAs (Decidable (_ ∧ _))

def assertValidAssetDecimals (assetDecimals : ℚ) : Except InvalidFeeInput Unit :=
  if IntegerWithin 0 maxAssetDecimals assetDecimals then .ok ()
  else .error (.assetDecimals assetDecimals)

def assertValidBasisPoints (line : FeeScheduleLine) : Except InvalidFeeInput Unit :=
  if IntegerWithin 0 10000 line.basisPoints then .ok ()
  else .error (.basisPoints line.code line.basisPoints)

/-- `(amount * bps + 5000) / 10000`. -/
def applyBasisPoints (amount basisPoints : Int) : Int := (amount * basisPoints + 5000).tdiv 10000

/-- One line of the breakdown. -/
def chargeLine (amount : Int) (line : FeeScheduleLine) : FeeLineItem :=
  let raw := applyBasisPoints amount line.basisPoints.num
  let (charged, clamped) : Int × Option FeeClamp :=
    match line.minFeeMinorUnits with
    | some low => if raw < low then (low, some .min) else (raw, none)
    | none => (raw, none)
  let (charged, clamped) : Int × Option FeeClamp :=
    match line.maxFeeMinorUnits with
    | some high => if high < charged then (high, some .max) else (charged, clamped)
    | none => (charged, clamped)
  ⟨line.code, line.label, line.basisPoints, raw, charged, clamped⟩

/-- The lines of the breakdown; `seenCodes` are the codes of the lines before. -/
def feeLines (amount : Int) : List JsString → List FeeScheduleLine →
    Except InvalidFeeInput (List FeeLineItem)
  | _, [] => .ok []
  | seenCodes, line :: schedule =>
      match assertValidBasisPoints line with
      | .error e => .error e
      | .ok () =>
          if line.code ∈ seenCodes then .error (.duplicateCode line.code)
          else
            match feeLines amount (line.code :: seenCodes) schedule with
            | .error e => .error e
            | .ok lines => .ok (chargeLine amount line :: lines)

/-- What the lines charge, each on its own. -/
def totalOf (lines : List FeeLineItem) : Int := (lines.map FeeLineItem.amountMinorUnits).sum

section Calculation

-- `BigInt(text)`; `none` where it throws
variable (bigInt : JsString → Option Int)

/-- `parseAmount`. -/
def parseFeeAmount (field : String) : FeeAmount → Except InvalidFeeInput Int
  | .bigint n => if n < 0 then .error (.negativeAmount field n) else .ok n
  | .text s =>
      match bigInt s with
      | none => .error (.notAnAmount field s)
      | some n => if n < 0 then .error (.negativeAmount field n) else .ok n

def calculateFees (amountMinorUnits : FeeAmount) (schedule : List FeeScheduleLine) (assetDecimals : ℚ) :
    Except InvalidFeeInput FeeBreakdown :=
  match assertValidAssetDecimals assetDecimals with
  | .error e => .error e
  | .ok () =>
      match parseFeeAmount bigInt "amountMinorUnits" amountMinorUnits with
      | .error e => .error e
      | .ok amount =>
          match feeLines amount [] schedule with
          | .error e => .error e
          | .ok lines =>
              let totalFee := if amount < totalOf lines then amount else totalOf lines
              .ok ⟨amount, assetDecimals, lines, totalFee, amount - totalFee⟩

end Calculation

/-! ## One line -/

variable {amount amount' : Int} {schedule : List FeeScheduleLine} {bigInt : JsString → Option Int}

theorem applyBasisPoints_mono {bps : Int} (h0 : 0 ≤ amount) (h : amount ≤ amount') (hbps : 0 ≤ bps) :
    applyBasisPoints amount bps ≤ applyBasisPoints amount' bps := by
  have hmul : amount * bps ≤ amount' * bps := mul_le_mul_of_nonneg_right h hbps
  have hnonneg : 0 ≤ amount * bps := mul_nonneg h0 hbps
  unfold applyBasisPoints
  rw [Int.tdiv_eq_ediv_of_nonneg (by omega), Int.tdiv_eq_ediv_of_nonneg (by omega)]
  exact Int.ediv_le_ediv (by decide) (by omega)

/-- The charge is the raw amount, raised to the minimum and then lowered to the maximum. -/
theorem chargeLine_amount (amount : Int) (line : FeeScheduleLine) :
    (chargeLine amount line).amountMinorUnits =
      let raw := applyBasisPoints amount line.basisPoints.num
      let raised := line.minFeeMinorUnits.elim raw (max raw)
      line.maxFeeMinorUnits.elim raised (min raised) := by
  unfold chargeLine
  cases line.minFeeMinorUnits with
  | none =>
      cases line.maxFeeMinorUnits with
      | none => rfl
      | some high =>
          simp only [Option.elim_none, Option.elim_some]
          split <;> simp only <;> omega
  | some low =>
      cases line.maxFeeMinorUnits with
      | none =>
          simp only [Option.elim_none, Option.elim_some]
          split <;> simp only <;> omega
      | some high =>
          simp only [Option.elim_some]
          split <;> split <;> simp only at * <;> omega

/-- **A line charges more of a larger amount.** -/
theorem chargeLine_mono {line : FeeScheduleLine} (h0 : 0 ≤ amount) (h : amount ≤ amount')
    (hbps : 0 ≤ line.basisPoints.num) :
    (chargeLine amount line).amountMinorUnits ≤ (chargeLine amount' line).amountMinorUnits := by
  have hraw := applyBasisPoints_mono h0 h hbps
  rw [chargeLine_amount, chargeLine_amount]
  cases line.minFeeMinorUnits <;> cases line.maxFeeMinorUnits <;>
    simp only [Option.elim_none, Option.elim_some] <;> omega

theorem chargeLine_nonneg {line : FeeScheduleLine} (h0 : 0 ≤ amount)
    (hbps : 0 ≤ line.basisPoints.num) (hmax : ∀ high ∈ line.maxFeeMinorUnits, 0 ≤ high) :
    0 ≤ (chargeLine amount line).amountMinorUnits := by
  have hraw := applyBasisPoints_mono le_rfl h0 hbps
  have hzero : applyBasisPoints 0 line.basisPoints.num = 0 := by
    rw [applyBasisPoints, zero_mul]
    rfl
  rw [chargeLine_amount]
  cases hlow : line.minFeeMinorUnits <;> cases hhigh : line.maxFeeMinorUnits <;>
    simp only [hhigh, Option.mem_some_iff, forall_eq'] at hmax <;>
    simp only [Option.elim_none, Option.elim_some] <;> omega

/-! ## A schedule -/

/-- What is checked of the lines, whatever the amount. -/
def ScheduleAccepted (seenCodes : List JsString) (schedule : List FeeScheduleLine) : Prop :=
  (∀ line ∈ schedule, IntegerWithin 0 10000 line.basisPoints ∧ line.code ∉ seenCodes) ∧
    (schedule.map FeeScheduleLine.code).Nodup

theorem feeLines_ok_iff {seenCodes : List JsString} {lines : List FeeLineItem} :
    feeLines amount seenCodes schedule = .ok lines ↔
      ScheduleAccepted seenCodes schedule ∧ lines = schedule.map (chargeLine amount) := by
  induction schedule generalizing seenCodes lines with
  | nil => simp [feeLines, ScheduleAccepted, eq_comm]
  | cons line schedule ih =>
      have hcons : ScheduleAccepted seenCodes (line :: schedule) ↔
          IntegerWithin 0 10000 line.basisPoints ∧ line.code ∉ seenCodes ∧
            ScheduleAccepted (line.code :: seenCodes) schedule := by
        simp only [ScheduleAccepted, List.mem_cons, List.map_cons, List.nodup_cons, List.mem_map,
          not_or, forall_eq_or_imp, not_exists, not_and]
        grind
      rw [hcons, feeLines, assertValidBasisPoints]
      by_cases hbps : IntegerWithin 0 10000 line.basisPoints
      · rw [if_pos hbps]
        by_cases hseen : line.code ∈ seenCodes
        · simp [hseen]
        · simp only [if_neg hseen]
          cases hrest : feeLines amount (line.code :: seenCodes) schedule with
          | error e =>
              simp only [reduceCtorEq, false_iff]
              rintro ⟨⟨-, -, hok⟩, -⟩
              have hlines : feeLines amount (line.code :: seenCodes) schedule =
                  .ok (schedule.map (chargeLine amount)) := ih.mpr ⟨hok, rfl⟩
              rw [hrest] at hlines
              cases hlines
          | ok rest =>
              obtain ⟨hok, rfl⟩ := ih.mp hrest
              simp [hbps, hseen, hok, eq_comm]
      · simp [hbps]

theorem num_nonneg {line : FeeScheduleLine} (h : IntegerWithin 0 10000 line.basisPoints) :
    0 ≤ line.basisPoints.num :=
  Rat.num_nonneg.mpr h.2.1

theorem totalOf_mono (h0 : 0 ≤ amount) (h : amount ≤ amount')
    (hbps : ∀ line ∈ schedule, IntegerWithin 0 10000 line.basisPoints) :
    totalOf (schedule.map (chargeLine amount)) ≤ totalOf (schedule.map (chargeLine amount')) := by
  simp only [totalOf, List.map_map]
  exact List.sum_le_sum fun line hline => chargeLine_mono h0 h (num_nonneg (hbps line hline))

theorem totalOf_nonneg (h0 : 0 ≤ amount)
    (hbps : ∀ line ∈ schedule, IntegerWithin 0 10000 line.basisPoints)
    (hmax : ∀ line ∈ schedule, ∀ high ∈ line.maxFeeMinorUnits, 0 ≤ high) :
    0 ≤ totalOf (schedule.map (chargeLine amount)) := by
  refine List.sum_nonneg fun x hx => ?_
  simp only [List.map_map, List.mem_map] at hx
  obtain ⟨line, hline, rfl⟩ := hx
  exact chargeLine_nonneg h0 (num_nonneg (hbps line hline)) (hmax line hline)

theorem parseFeeAmount_nonneg {field : String} {amount : FeeAmount} {n : Int}
    (h : parseFeeAmount bigInt field amount = .ok n) : 0 ≤ n := by
  cases amount with
  | bigint m =>
      simp only [parseFeeAmount] at h
      split at h <;> cases h
      omega
  | text s =>
      simp only [parseFeeAmount] at h
      split at h
      · cases h
      · split at h <;> cases h
        omega

/-- What a breakdown says. -/
theorem calculateFees_ok {amount : FeeAmount} {assetDecimals : ℚ} {b : FeeBreakdown}
    (h : calculateFees bigInt amount schedule assetDecimals = .ok b) :
    IntegerWithin 0 maxAssetDecimals assetDecimals ∧ 0 ≤ b.inputAmountMinorUnits ∧
      ScheduleAccepted [] schedule ∧
      b.lines = schedule.map (chargeLine b.inputAmountMinorUnits) ∧
      b.totalFeeMinorUnits = min b.inputAmountMinorUnits (totalOf b.lines) ∧
      b.netAmountMinorUnits = b.inputAmountMinorUnits - b.totalFeeMinorUnits := by
  unfold calculateFees assertValidAssetDecimals at h
  by_cases hdecimals : IntegerWithin 0 maxAssetDecimals assetDecimals
  · rw [if_pos hdecimals] at h
    cases hamount : parseFeeAmount bigInt "amountMinorUnits" amount with
    | error e =>
        rw [hamount] at h
        cases h
    | ok n =>
        cases hlines : feeLines n [] schedule with
        | error e =>
            simp only [hamount, hlines] at h
            cases h
        | ok lines =>
            obtain ⟨haccepted, rfl⟩ := feeLines_ok_iff.mp hlines
            simp only [hamount, hlines, Except.ok.injEq] at h
            subst h
            refine ⟨hdecimals, parseFeeAmount_nonneg hamount, haccepted, rfl, ?_, rfl⟩
            simp only
            split <;> omega
  · rw [if_neg hdecimals] at h
    cases h

/-- **Fee breakdowns**, for every amount and every schedule that is accepted. Net and total make up the
amount; the total is the sum of the lines, cut at the amount; it never falls when the amount grows, and
is not negative unless some maximum fee is. A schedule accepted for one amount is accepted for all. -/
theorem fee_breakdown (bigInt : JsString → Option Int) (amount : FeeAmount)
    (schedule : List FeeScheduleLine) (assetDecimals : ℚ) (b : FeeBreakdown)
    (h : calculateFees bigInt amount schedule assetDecimals = .ok b) :
    b.totalFeeMinorUnits = min b.inputAmountMinorUnits (totalOf b.lines) ∧
    b.totalFeeMinorUnits ≤ b.inputAmountMinorUnits ∧
    b.netAmountMinorUnits + b.totalFeeMinorUnits = b.inputAmountMinorUnits ∧
    ((∀ line ∈ schedule, ∀ high ∈ line.maxFeeMinorUnits, 0 ≤ high) → 0 ≤ b.totalFeeMinorUnits) ∧
    (∀ n, 0 ≤ n → ∃ b', calculateFees bigInt (.bigint n) schedule assetDecimals = .ok b' ∧
      b'.inputAmountMinorUnits = n) ∧
    ∀ amount' b', calculateFees bigInt amount' schedule assetDecimals = .ok b' →
      b.inputAmountMinorUnits ≤ b'.inputAmountMinorUnits →
      b.totalFeeMinorUnits ≤ b'.totalFeeMinorUnits := by
  obtain ⟨hdecimals, h0, haccepted, hlines, htotal, hnet⟩ := calculateFees_ok h
  have hbps := fun line hline => (haccepted.1 line hline).1
  refine ⟨htotal, by omega, by omega, fun hmax => ?_, fun n hn => ?_, fun amount' b' hb' hle => ?_⟩
  · have hnonneg := totalOf_nonneg h0 hbps hmax
    rw [← hlines] at hnonneg
    omega
  · have hparse : parseFeeAmount bigInt "amountMinorUnits" (.bigint n) = .ok n := if_neg (by omega)
    have hrun : feeLines n [] schedule = .ok (schedule.map (chargeLine n)) :=
      feeLines_ok_iff.mpr ⟨haccepted, rfl⟩
    unfold calculateFees assertValidAssetDecimals
    rw [if_pos hdecimals]
    simp only [hparse, hrun]
    exact ⟨_, rfl, rfl⟩
  · obtain ⟨-, -, -, hlines', htotal', -⟩ := calculateFees_ok hb'
    have hmore := totalOf_mono h0 hle hbps
    rw [← hlines, ← hlines'] at hmore
    omega

/-- A fee raised to its minimum, one lowered to its maximum, and one that is rounded up. -/
def sampleSchedule : List FeeScheduleLine :=
  [⟨js "trade", js "Trade", 100, some 12, none⟩, ⟨js "custody", js "Custody", 50, none, some 2⟩,
    ⟨js "levy", js "Levy", 25, some 1, some 9⟩]

/-- Of 1000 the lines charge 12, 2 and 3. -/
theorem fee_breakdown_sample :
    ∃ b, calculateFees (fun _ => none) (.bigint 1000) sampleSchedule 7 = .ok b ∧
      b.lines.map FeeLineItem.amountMinorUnits = [12, 2, 3] ∧ 0 ≤ b.totalFeeMinorUnits ∧
      b.totalFeeMinorUnits = min b.inputAmountMinorUnits (totalOf b.lines) ∧
      b.netAmountMinorUnits + b.totalFeeMinorUnits = b.inputAmountMinorUnits := by
  have hok : (calculateFees (fun _ => none) (.bigint 1000) sampleSchedule 7).toOption.map
      (fun b => b.lines.map FeeLineItem.amountMinorUnits) = some [12, 2, 3] := by decide +kernel
  cases h : calculateFees (fun _ => none) (.bigint 1000) sampleSchedule 7 with
  | error e =>
      rw [h] at hok
      cases hok
  | ok b =>
      rw [h] at hok
      obtain ⟨htotal, -, hnet, hnonneg, -⟩ := fee_breakdown _ _ _ _ b h
      exact ⟨b, rfl, Option.some.inj hok, hnonneg (by simp [sampleSchedule]), htotal, hnet⟩

/-- **The lines may charge more than the total**: two lines of 60% charge 12 of an amount of 10, of
which the total reports 10. -/
theorem total_below_lines :
    (calculateFees (fun _ => none) (.bigint 10) [⟨js "a", js "A", 6000, none, none⟩,
      ⟨js "b", js "B", 6000, none, none⟩] 7).toOption.map
        (fun b => (b.totalFeeMinorUnits, totalOf b.lines)) = some (10, 12) := by
  decide +kernel

end VerdantBond
