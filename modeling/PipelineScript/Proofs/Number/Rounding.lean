import Mathlib.Algebra.Order.Field.Power
import Mathlib.Algebra.Order.Field.Rat
import Mathlib.Tactic.FieldSimp
import Mathlib.Tactic.Linarith
import Mathlib.Tactic.NormNum
import Mathlib.Tactic.Positivity
import Mathlib.Tactic.Ring
import PipelineScript.Number.Shortest
import PipelineScript.Proofs.Number.Digits

/-
  Decimals that round to a binary number.

  The interval of a number holds what is nearer to it than to
  any other number. A decimal in the interval is read as that
  number, whichever way it is written.

  Key definitions include:
    * `Decimal.value`
    * `Binary64.Rounding.Holds`

  Key theorems include:
    * `Binary64.roundHalfEven_eq`
    * `Binary64.nearestOrdinal_eq`
    * `Binary64.ofRatio?_of_holds`
    * `Binary64.ofDecimal?_of_holds`
-/

namespace PipelineScript

namespace Binary64

------------------------------------------------------------
-- Significands and Exponents
------------------------------------------------------------

/- How many magnitudes there are between powers of two. -/
theorem pow_two_52 : Nat.pow 2 52 = 4503599627370496 :=
  rfl

/- The place of a number is told by its two parts. -/
theorem ordinal_eq (x : Binary64) :
    x.ordinal =
      x.exponent * Nat.pow 2 52 + x.significand := by
  rw [significand, exponent, pow_two_52]
  omega

/- The significand has at most 53 bits. -/
theorem significand_lt (x : Binary64) :
    x.significand < 2 * Nat.pow 2 52 := by
  rw [significand, exponent, pow_two_52]
  omega

/- It has no less where it is scaled. -/
theorem le_significand
    {x : Binary64}
    (hScaled : 0 < x.exponent) :
    Nat.pow 2 52 ≤ x.significand := by
  rw [exponent, pow_two_52] at hScaled
  rw [significand, exponent, pow_two_52]
  omega

/- Only the zeros have the significand zero. -/
theorem significand_pos
    {x : Binary64}
    (hNonzero : x.isZero = false) :
    0 < x.significand := by
  rw [isZero, beq_eq_false_iff_ne] at hNonzero
  have hOrdinal := x.ordinal_eq
  by_cases hScaled : 0 < x.exponent
  · have hLeast := le_significand hScaled
    rw [pow_two_52] at hLeast
    omega
  · rw [Nat.eq_zero_of_not_pos hScaled, Nat.zero_mul]
      at hOrdinal
    omega

------------------------------------------------------------
-- Rounding to Whole Numbers
------------------------------------------------------------

/-
  What is at most a half away from a whole number is rounded
  to it, and to an odd one if it is less than that.
-/
theorem roundHalfEven_eq
    {numerator denominator n : Nat}
    (hDenominator : 0 < denominator)
    (hLow :
      4 * (n * denominator) ≤ 4 * numerator + 2 * denominator)
    (hHigh :
      4 * numerator ≤ 4 * (n * denominator) + 2 * denominator)
    (hOdd :
      n % 2 = 1 →
        4 * (n * denominator) < 4 * numerator + 2 * denominator ∧
          4 * numerator <
            4 * (n * denominator) + 2 * denominator) :
    roundHalfEven numerator denominator = n := by
  unfold roundHalfEven
  have hSplit := Nat.div_add_mod numerator denominator
  have hRest := Nat.mod_lt numerator hDenominator
  generalize numerator / denominator = quotient at *
  generalize numerator % denominator = rest at *
  rw [Nat.mul_comm] at hSplit
  -- The quotient is the number, or one less than it.
  have hLeast : n ≤ quotient + 1 := by
    apply Nat.le_of_not_lt
    intro hLess
    have hMul :=
      Nat.mul_le_mul_right denominator
        (show quotient + 2 ≤ n from hLess)
    rw [Nat.add_mul] at hMul
    omega
  have hMost : quotient ≤ n := by
    apply Nat.le_of_not_lt
    intro hLess
    have hMul :=
      Nat.mul_le_mul_right denominator
        (show n + 1 ≤ quotient from hLess)
    rw [Nat.add_mul] at hMul
    omega
  by_cases hSame : quotient = n
  · subst hSame
    have hEven : 2 * rest = denominator → quotient % 2 = 0 := by
      omega
    dsimp only
    split
    · rfl
    · split
      · omega
      · omega
  · have hNext : n = quotient + 1 := by omega
    subst hNext
    rw [Nat.add_mul, Nat.one_mul] at hLow hOdd
    dsimp only
    split
    · omega
    · split
      · rfl
      · omega

------------------------------------------------------------
-- Intervals
------------------------------------------------------------

/-
  The lower end of an interval is half a unit away, or half of
  that below a power of two.
-/
theorem exists_low_eq
    {x : Binary64}
    (hNonzero : x.isZero = false) :
    ∃ step,
      x.rounding.low + step * Nat.pow 2 x.exponent =
          4 * x.significand * Nat.pow 2 x.exponent ∧
        (step = 2 ∧
            (x.significand = Nat.pow 2 52 → x.exponent = 0) ∨
          step = 1 ∧ x.significand = Nat.pow 2 52) := by
  have hPos := significand_pos hNonzero
  unfold rounding
  dsimp only
  split
  · next hPower =>
      rw [Bool.and_eq_true, beq_iff_eq,
        decide_eq_true_eq] at hPower
      refine ⟨1, ?_, Or.inr ⟨rfl, hPower.1⟩⟩
      rw [← Nat.add_mul, Nat.sub_add_cancel (by omega)]
  · next hOther =>
      rw [Bool.and_eq_true, beq_iff_eq, decide_eq_true_eq,
        not_and, Nat.not_lt, Nat.le_zero] at hOther
      refine ⟨2, ?_, Or.inl ⟨rfl, hOther⟩⟩
      rw [← Nat.add_mul, Nat.sub_add_cancel (by omega)]

/- The upper end of an interval is half a unit away. -/
theorem high_eq (x : Binary64) :
    x.rounding.high =
      4 * x.significand * Nat.pow 2 x.exponent
        + 2 * Nat.pow 2 x.exponent :=
  Nat.add_mul _ _ _

/- The ends belong to even significands. -/
theorem closed_eq_false_iff (x : Binary64) :
    x.rounding.closed = false ↔ x.significand % 2 = 1 := by
  rw [rounding, beq_eq_false_iff_ne, Nat.mod_two_ne_zero]

/- The scale that a quotient of so many bits is rounded at. -/
theorem log2_sub_eq
    {shift quotient : Nat}
    (hLow :
      Nat.pow 2 52 * Nat.pow 2 shift ≤ quotient ∨ shift = 0)
    (hHigh :
      quotient < 2 * Nat.pow 2 52 * Nat.pow 2 shift) :
    quotient.log2 - 52 = shift := by
  have hUpper : quotient < 2 ^ (53 + shift) := by
    rw [Nat.pow_add]
    exact hHigh
  rcases hLow with hLow | hZero
  · have hPos : quotient ≠ 0 := by
      have : 0 < Nat.pow 2 52 * Nat.pow 2 shift :=
        Nat.mul_pos (by decide) (Nat.pow_pos (by decide))
      omega
    have hLower : 2 ^ (52 + shift) ≤ quotient := by
      rw [Nat.pow_add]
      exact hLow
    have hLess := (Nat.log2_lt hPos).mpr hUpper
    have hLeast := (Nat.le_log2 hPos).mpr hLower
    omega
  · rw [hZero] at hUpper ⊢
    by_cases hPos : quotient = 0
    · rw [hPos]
      rfl
    · have hLess := (Nat.log2_lt hPos).mpr hUpper
      omega

------------------------------------------------------------
-- Quotients in Intervals
------------------------------------------------------------

/- A whole number in quarters of the least magnitude. -/
def quarters (n : Nat) : Nat :=
  4 * (n * Nat.pow 2 1074)

/- A quotient is rounded at the scale that it lies in. -/
theorem nearestOrdinal_at
    {numerator denominator shift : Nat}
    (hDenominator : 0 < denominator)
    (hLow :
      Nat.pow 2 52 * (Nat.pow 2 shift * denominator) ≤
          numerator * Nat.pow 2 1074 ∨
        shift = 0)
    (hHigh :
      numerator * Nat.pow 2 1074 <
        2 * Nat.pow 2 52 * (Nat.pow 2 shift * denominator)) :
    nearestOrdinal numerator denominator =
      shift * Nat.pow 2 52
        + roundHalfEven (numerator * Nat.pow 2 1074)
          (Nat.pow 2 shift * denominator) := by
  unfold nearestOrdinal
  dsimp only
  generalize numerator * Nat.pow 2 1074 = scaled at *
  have hLower :
      Nat.pow 2 52 * Nat.pow 2 shift ≤ scaled / denominator ∨
        shift = 0 := by
    rw [Nat.le_div_iff_mul_le hDenominator, Nat.mul_assoc]
    exact hLow
  have hUpper :
      scaled / denominator <
        2 * Nat.pow 2 52 * Nat.pow 2 shift := by
    rw [Nat.div_lt_iff_lt_mul hDenominator, Nat.mul_assoc]
    exact hHigh
  rw [log2_sub_eq hLower hUpper, Nat.mul_comm denominator]

variable {scaled unit half low step m : Nat}

/- At the scale of an interval its number is the nearest one. -/
theorem roundHalfEven_at_scale
    (hUnit : 0 < unit)
    (hEnd : low + step * unit = 4 * (m * unit))
    (hStep : step ≤ 2)
    (hLow : low ≤ 4 * scaled)
    (hHigh : 4 * scaled ≤ 4 * (m * unit) + 2 * unit)
    (hOpen :
      m % 2 = 1 →
        low < 4 * scaled ∧
          4 * scaled < 4 * (m * unit) + 2 * unit) :
    roundHalfEven scaled unit = m := by
  have hTwice : step * unit ≤ 2 * unit :=
    Nat.mul_le_mul_right unit hStep
  refine roundHalfEven_eq hUnit (by omega) hHigh ?_
  intro hOdd
  have hStrict := hOpen hOdd
  omega

/-
  Below a power of two the scale is half as large, and the
  power is the greatest whole number at it.
-/
theorem roundHalfEven_below_scale
    (hHalf : 0 < half)
    (hEnd : low + 2 * half = 4 * (m * (2 * half)))
    (hLow : low ≤ 4 * scaled)
    (hBelow : scaled < m * (2 * half)) :
    roundHalfEven scaled half = 2 * m := by
  have hDouble : m * (2 * half) = 2 * (m * half) :=
    Nat.mul_left_comm m 2 half
  have hSame : 2 * m * half = 2 * (m * half) :=
    Nat.mul_assoc 2 m half
  rw [hDouble] at hEnd hBelow
  refine roundHalfEven_eq hHalf ?_ ?_ (by omega)
  · rw [hSame]
    omega
  · rw [hSame]
    omega

/- What lies below the power of two lies in the scale below. -/
theorem bounds_below_scale
    (hPos : 0 < m)
    (hEnd : low + 2 * half = 4 * (m * (2 * half)))
    (hLow : low ≤ 4 * scaled)
    (hBelow : scaled < m * (2 * half)) :
    m * half ≤ scaled ∧ scaled < 2 * m * half := by
  have hDouble : m * (2 * half) = 2 * (m * half) :=
    Nat.mul_left_comm m 2 half
  have hLeast : half ≤ m * half :=
    Nat.le_mul_of_pos_left half hPos
  rw [hDouble] at hEnd hBelow
  rw [Nat.mul_assoc]
  omega

/-
  Nothing but the interval of a power of two reaches below the
  scale of its number.
-/
theorem eq_of_below_scale
    {least : Nat}
    (hUnit : 0 < unit)
    (hEnd : low + step * unit = 4 * (m * unit))
    (hStep : step ≤ 2)
    (hLow : low ≤ 4 * scaled)
    (hLeast : least ≤ m)
    (hBelow : scaled < least * unit) :
    m = least := by
  have hTwice : step * unit ≤ 2 * unit :=
    Nat.mul_le_mul_right unit hStep
  apply Nat.le_antisymm _ hLeast
  apply Nat.le_of_not_lt
  intro hMore
  have hMul :=
    Nat.mul_le_mul_right unit (show least + 1 ≤ m from hMore)
  rw [Nat.add_mul] at hMul
  omega

/- A quotient in the interval of a number is nearest to it. -/
theorem nearestOrdinal_eq
    {x : Binary64}
    (hNonzero : x.isZero = false)
    {numerator denominator : Nat}
    (hDenominator : 0 < denominator)
    (hLow :
      x.rounding.low * denominator ≤ quarters numerator)
    (hHigh :
      quarters numerator ≤ x.rounding.high * denominator)
    (hStrict :
      x.rounding.closed = false →
        x.rounding.low * denominator < quarters numerator ∧
          quarters numerator < x.rounding.high * denominator) :
    nearestOrdinal numerator denominator = x.ordinal := by
  have hUnit : 0 < Nat.pow 2 x.exponent * denominator :=
    Nat.mul_pos (Nat.pow_pos (by decide)) hDenominator
  rcases exists_low_eq hNonzero with ⟨step, hStep, hSteps⟩
  have hLowEnd :
      x.rounding.low * denominator
          + step * (Nat.pow 2 x.exponent * denominator) =
        4 * (x.significand
          * (Nat.pow 2 x.exponent * denominator)) := by
    rw [← Nat.mul_assoc, ← Nat.add_mul, hStep]
    ring
  have hHighEnd :
      x.rounding.high * denominator =
        4 * (x.significand
            * (Nat.pow 2 x.exponent * denominator))
          + 2 * (Nat.pow 2 x.exponent * denominator) := by
    rw [high_eq]
    ring
  rw [quarters] at hLow hHigh hStrict
  rw [hHighEnd] at hHigh hStrict
  have hBelow :
      numerator * Nat.pow 2 1074 <
        2 * Nat.pow 2 52
          * (Nat.pow 2 x.exponent * denominator) := by
    have hMul :=
      Nat.mul_le_mul_right
        (Nat.pow 2 x.exponent * denominator)
        (Nat.succ_le_of_lt x.significand_lt)
    rw [Nat.succ_mul] at hMul
    generalize numerator * Nat.pow 2 1074 = scaled at *
    omega
  rw [x.ordinal_eq]
  by_cases hAbove :
      Nat.pow 2 52 * (Nat.pow 2 x.exponent * denominator) ≤
          numerator * Nat.pow 2 1074 ∨
        x.exponent = 0
  · rw [nearestOrdinal_at hDenominator hAbove hBelow,
      roundHalfEven_at_scale hUnit hLowEnd (by omega) hLow
        hHigh
        fun hOdd => hStrict (x.closed_eq_false_iff.mpr hOdd)]
  · rw [not_or, Nat.not_le] at hAbove
    rcases Nat.exists_eq_succ_of_ne_zero hAbove.2 with
      ⟨shift, hShift⟩
    have hPower : x.significand = Nat.pow 2 52 :=
      eq_of_below_scale hUnit hLowEnd (by omega) hLow
        (le_significand (Nat.pos_of_ne_zero hAbove.2))
        hAbove.1
    have hOne : step = 1 := by
      rcases hSteps with ⟨-, hNone⟩ | ⟨hOne, -⟩
      · exact absurd (hNone hPower) hAbove.2
      · exact hOne
    have hDouble :
        Nat.pow 2 x.exponent * denominator =
          2 * (Nat.pow 2 shift * denominator) := by
      rw [hShift, Nat.pow_eq, Nat.pow_eq, Nat.pow_succ]
      ring
    rw [hOne, Nat.one_mul, hPower, hDouble] at hLowEnd
    rw [hDouble] at hAbove
    have hHalf : 0 < Nat.pow 2 shift * denominator :=
      Nat.mul_pos (Nat.pow_pos (by decide)) hDenominator
    rcases bounds_below_scale (Nat.pow_pos (by decide)) hLowEnd
      hLow hAbove.1 with ⟨hLeast, hLess⟩
    rw [nearestOrdinal_at hDenominator (Or.inl hLeast) hLess,
      roundHalfEven_below_scale hHalf hLowEnd hLow hAbove.1,
      hShift, hPower, pow_two_52]
    omega

------------------------------------------------------------
-- Values in Intervals
------------------------------------------------------------

/-
  A value lies in an interval, whose ends are quarters of the
  least magnitude.
-/
structure Rounding.Holds
    (interval : Rounding)
    (value : ℚ) : Prop where
  low_le : interval.low ≤ value * 2 ^ 1076
  le_high : value * 2 ^ 1076 ≤ interval.high
  strict :
    interval.closed = false →
      interval.low < value * 2 ^ 1076 ∧
        value * 2 ^ 1076 < interval.high

/- A quotient that is scaled up, in quarters. -/
theorem scaled_quotient_eq (numerator denominator : Nat) :
    (numerator : ℚ) / (denominator : ℚ) * 2 ^ 1076 =
      (quarters numerator : ℚ) / (denominator : ℚ) := by
  unfold quarters
  rw [show 1076 = 2 + 1074 from rfl]
  -- The power is only multiplied, and never worked out.
  generalize 1074 = power
  rw [Nat.pow_eq, pow_add]
  push_cast
  ring

/- A quotient in the interval of a number is read as it. -/
theorem ofRatio?_of_holds
    {x : Binary64}
    (hNonzero : x.isZero = false)
    {numerator denominator : Nat}
    (hDenominator : 0 < denominator)
    (hHolds :
      x.rounding.Holds
        ((numerator : ℚ) / (denominator : ℚ))) :
    ofRatio? x.negative numerator denominator = some x := by
  have hPos : (0 : ℚ) < (denominator : ℚ) := by
    exact_mod_cast hDenominator
  rcases hHolds with ⟨hLow, hHigh, hStrict⟩
  rw [scaled_quotient_eq] at hLow hHigh hStrict
  rw [le_div_iff₀ hPos, ← Nat.cast_mul, Nat.cast_le] at hLow
  rw [div_le_iff₀ hPos, ← Nat.cast_mul, Nat.cast_le] at hHigh
  rw [lt_div_iff₀ hPos, div_lt_iff₀ hPos, ← Nat.cast_mul,
    ← Nat.cast_mul, Nat.cast_lt, Nat.cast_lt] at hStrict
  have hNearest :
      nearestOrdinal numerator denominator = x.ordinal :=
    nearestOrdinal_eq hNonzero hDenominator hLow hHigh hStrict
  have hLt := x.ordinal_lt
  rw [← hNearest] at hLt
  rw [ofRatio?, dif_pos hLt]
  cases x
  simp_all

------------------------------------------------------------
-- Decimals in Intervals
------------------------------------------------------------

/- An interval begins above zero. -/
theorem low_pos
    {x : Binary64}
    (hNonzero : x.isZero = false) :
    0 < x.rounding.low := by
  have hPos := significand_pos hNonzero
  have hScale : 0 < Nat.pow 2 x.exponent :=
    Nat.pow_pos (by decide)
  rcases exists_low_eq hNonzero with ⟨step, hStep, hSteps⟩
  have hTwice :
      step * Nat.pow 2 x.exponent ≤
        2 * Nat.pow 2 x.exponent :=
    Nat.mul_le_mul_right _ (by omega)
  have hLeast :
      4 * Nat.pow 2 x.exponent ≤
        4 * x.significand * Nat.pow 2 x.exponent :=
    Nat.mul_le_mul_right _ (by omega)
  omega

/- The significand is scaled by so much at most. -/
theorem exponent_le (x : Binary64) :
    x.exponent ≤ 2045 := by
  have hLt := x.ordinal_lt
  rw [pow_two_52] at hLt
  rw [exponent, pow_two_52]
  omega

/- An interval ends at 55 bits and the scale. -/
theorem high_lt
    {x : Binary64}
    {most : Nat}
    (hExponent : x.exponent ≤ most) :
    x.rounding.high < 2 ^ (55 + most) := by
  have hSignificand := x.significand_lt
  rw [pow_two_52] at hSignificand
  rw [high_eq, ← Nat.add_mul]
  calc
    (4 * x.significand + 2) * Nat.pow 2 x.exponent
      < 2 ^ 55 * 2 ^ x.exponent := by
        apply Nat.mul_lt_mul_of_pos_right
        · omega
        · exact Nat.pow_pos (by decide)
    _ = 2 ^ (55 + x.exponent) := (Nat.pow_add _ _ _).symm
    _ ≤ 2 ^ (55 + most) :=
        Nat.pow_le_pow_right (by decide)
          (Nat.add_le_add_left hExponent 55)

end Binary64

/- The value of a decimal. -/
def Decimal.value (decimal : Decimal) : ℚ :=
  decimal.digits * 10 ^ decimal.exponent

namespace Binary64

/- Powers of ten are larger than those of eight. -/
theorem two_pow_le_ten_pow (n : Nat) :
    (2 : ℚ) ^ (3 * n) ≤ 10 ^ n := by
  rw [pow_mul]
  exact pow_le_pow_left₀ (by norm_num) (by norm_num) n

/- The size of a decimal bounds its value. -/
theorem value_bounds
    {decimal : Decimal}
    (hDigits : decimal.digits ≠ 0) :
    (10 : ℚ) ^ (decimalLength decimal.digits
        + decimal.exponent - 1) ≤ decimal.value ∧
      decimal.value <
        10 ^ (decimalLength decimal.digits
          + decimal.exponent) := by
  have hLength : 0 < decimalLength decimal.digits :=
    Nat.length_toDigits_pos
  have hPower : (0 : ℚ) < 10 ^ decimal.exponent :=
    zpow_pos (by norm_num) _
  have hLow := Number.pow_length_natText_le hDigits
  have hHigh := Number.lt_pow_length_natText decimal.digits
  change 10 ^ (decimalLength decimal.digits - 1) ≤ _ at hLow
  change _ < 10 ^ decimalLength decimal.digits at hHigh
  constructor
  · rw [show (decimalLength decimal.digits
        + decimal.exponent - 1 : ℤ) =
          ((decimalLength decimal.digits - 1 : Nat) : ℤ)
            + decimal.exponent by omega,
      zpow_add₀ (by norm_num), zpow_natCast]
    exact mul_le_mul_of_nonneg_right (by exact_mod_cast hLow)
      hPower.le
  · rw [zpow_add₀ (by norm_num), zpow_natCast]
    exact mul_lt_mul_of_pos_right (by exact_mod_cast hHigh)
      hPower

/- A decimal in an interval is not too large, nor too small. -/
theorem size_bounds
    {x : Binary64}
    (hNonzero : x.isZero = false)
    {decimal : Decimal}
    (hHolds : x.rounding.Holds decimal.value)
    (hDigits : decimal.digits ≠ 0) :
    -400 ≤ decimalLength decimal.digits + decimal.exponent ∧
      decimalLength decimal.digits + decimal.exponent ≤
        400 := by
  rcases value_bounds hDigits with ⟨hLeast, hMost⟩
  have hUnit : (0 : ℚ) < 2 ^ 1076 := by positivity
  have hOne : (1 : ℚ) ≤ decimal.value * 2 ^ 1076 :=
    le_trans (by exact_mod_cast low_pos hNonzero) hHolds.low_le
  have hLess : decimal.value * 2 ^ 1076 < 2 ^ (55 + 2045) :=
    lt_of_le_of_lt hHolds.le_high
      (by exact_mod_cast high_lt x.exponent_le)
  constructor
  · by_contra hSmall
    have hTiny : decimal.value < 10 ^ (-401 : ℤ) :=
      lt_of_lt_of_le hMost
        (zpow_le_zpow_right₀ (by norm_num) (by omega))
    have hScale : (2 : ℚ) ^ 1076 ≤ 10 ^ 401 :=
      le_trans
        (pow_le_pow_right₀ (by norm_num) (by norm_num))
        (two_pow_le_ten_pow 401)
    have hPos : (0 : ℚ) < 10 ^ 401 := by positivity
    rw [zpow_neg, ← Nat.cast_ofNat (n := 401),
      zpow_natCast] at hTiny
    have hNone : decimal.value * 2 ^ 1076 < 1 := by
      calc
        decimal.value * 2 ^ 1076
          < (10 ^ 401)⁻¹ * 2 ^ 1076 :=
            mul_lt_mul_of_pos_right hTiny hUnit
        _ ≤ (10 ^ 401)⁻¹ * 10 ^ 401 :=
            mul_le_mul_of_nonneg_left hScale
              (inv_nonneg.mpr hPos.le)
        _ = 1 := inv_mul_cancel₀ hPos.ne'
    exact absurd hOne (not_le.mpr hNone)
  · by_contra hLarge
    have hHuge : (10 : ℚ) ^ (400 : ℤ) ≤ decimal.value :=
      le_trans
        (zpow_le_zpow_right₀ (by norm_num) (by omega)) hLeast
    rw [← Nat.cast_ofNat (n := 400), zpow_natCast] at hHuge
    have hMore :
        (2 : ℚ) ^ (55 + 2045) ≤ decimal.value * 2 ^ 1076 := by
      calc
        (2 : ℚ) ^ (55 + 2045)
          ≤ 2 ^ (3 * 400) * 2 ^ 1076 := by
            rw [← pow_add]
            exact pow_le_pow_right₀ (by norm_num) (by norm_num)
        _ ≤ decimal.value * 2 ^ 1076 :=
            mul_le_mul_of_nonneg_right
              (le_trans (two_pow_le_ten_pow 400) hHuge)
              hUnit.le
    exact absurd hLess (not_lt.mpr hMore)

/-
  A decimal in the interval of a number is read as the number,
  whatever its digits and its exponent are.
-/
theorem ofDecimal?_of_holds
    {x : Binary64}
    (hNonzero : x.isZero = false)
    {decimal : Decimal}
    (hHolds : x.rounding.Holds decimal.value) :
    ofDecimal? x.negative decimal.digits decimal.exponent =
      some x := by
  have hDigits : decimal.digits ≠ 0 := by
    intro hZero
    have hLow := hHolds.low_le
    rw [Decimal.value, hZero, Nat.cast_zero, zero_mul, zero_mul]
      at hLow
    exact absurd (low_pos hNonzero)
      (Nat.not_lt.mpr (by exact_mod_cast hLow))
  rcases size_bounds hNonzero hHolds hDigits with
    ⟨hSmall, hLarge⟩
  unfold ofDecimal?
  dsimp only
  rw [if_neg (by simpa using hDigits),
    if_neg (Int.not_lt.mpr hSmall),
    if_neg (Int.not_lt.mpr hLarge)]
  split
  · next hNegative =>
      apply ofRatio?_of_holds hNonzero
        (Nat.pow_pos (by decide))
      have hValue :
          (decimal.digits : ℚ)
              / ((10 ^ decimal.exponent.natAbs : Nat) : ℚ)
            = decimal.value := by
        have hPower :
            decimal.exponent =
              -((decimal.exponent.natAbs : Nat) : ℤ) := by
          omega
        rw [Decimal.value, Nat.cast_pow]
        conv_rhs => rw [hPower, zpow_neg, zpow_natCast]
        rw [div_eq_mul_inv]
        rfl
      rw [hValue]
      exact hHolds
  · next hPositive =>
      apply ofRatio?_of_holds hNonzero Nat.one_pos
      have hValue :
          ((decimal.digits
                * Nat.pow 10 decimal.exponent.natAbs : Nat) : ℚ)
              / ((1 : Nat) : ℚ)
            = decimal.value := by
        have hPower :
            decimal.exponent =
              ((decimal.exponent.natAbs : Nat) : ℤ) := by
          omega
        rw [Decimal.value, Nat.pow_eq, Nat.cast_mul,
          Nat.cast_pow, Nat.cast_one, div_one]
        conv_rhs => rw [hPower, zpow_natCast]
        rfl
      rw [hValue]
      exact hHolds

end Binary64

end PipelineScript
