import Mathlib.Algebra.Order.Field.Rat
import Mathlib.Tactic.Positivity
import PipelineScript.Number.Exact
import PipelineScript.Proofs.Number.Rounding

/-
  Numbers as signed integers of 64 bits.

  An integer above the range is rounded before it is looked
  at, and so is the bound that it is held against. The bound
  becomes the first number above the range, and nothing above
  the range is rounded below it. But the bound is that of the
  magnitudes, and the range has one more negative integer than
  positive ones.

  Key definitions include:
    * `Binary64.value`
    * `Binary64.leastSigned`
    * `Number.value`
    * `Number.IsSigned`

  Key theorems include:
    * `Binary64.units_lt_units_iff`
    * `Binary64.toSigned?_eq_some_iff`
    * `Binary64.toSigned?_ofInt_of_large`
    * `Number.toInteger?_eq_some_iff`
-/

namespace PipelineScript

namespace Binary64

------------------------------------------------------------
-- Values
------------------------------------------------------------

/- The value of a number, which is always a dyadic fraction. -/
def value (x : Binary64) : ℚ :=
  (if x.negative then -1 else 1)
    * (x.units / (Nat.pow 2 1074 : ℕ))

variable {x y : Binary64} {n : Int}

/- There are many units in a whole. -/
theorem scale_pos : 0 < Nat.pow 2 1074 := by
  -- The power is not worked out, here and below.
  generalize 1074 = power
  exact Nat.pow_pos (by decide)

/- A number has an integer for its value if it has its units. -/
theorem value_eq_intCast_iff :
    x.value = n ↔
      (x.units : ℤ) =
        (if x.negative then -n else n) * Nat.pow 2 1074 := by
  unfold value
  have hScale := scale_pos
  generalize Nat.pow 2 1074 = scale at *
  have hNonzero : (scale : ℚ) ≠ 0 := by
    exact_mod_cast hScale.ne'
  split
  · rw [neg_one_mul, neg_eq_iff_eq_neg, div_eq_iff hNonzero]
    exact_mod_cast Iff.rfl
  · rw [one_mul, div_eq_iff hNonzero]
    exact_mod_cast Iff.rfl

/- Such a number has no fractional part, and no other one. -/
theorem whole?_eq_some_iff :
    x.whole? = some n ↔ x.value = n := by
  rw [value_eq_intCast_iff, whole?]
  have hPos := scale_pos
  generalize Nat.pow 2 1074 = scale at *
  have hScale : (0 : ℤ) < scale := by
    exact_mod_cast hPos
  split
  · next hWhole =>
      rcases Nat.dvd_of_mod_eq_zero (beq_iff_eq.mp hWhole) with
        ⟨whole, hUnits⟩
      have hQuotient : x.units / scale = whole := by
        rw [hUnits]
        exact Nat.mul_div_cancel_left whole (by omega)
      have hProduct : (x.units : ℤ) = whole * scale := by
        rw [hUnits, Nat.cast_mul, Int.mul_comm]
      simp only [hQuotient, hProduct, Option.some.injEq,
        mul_left_inj' (ne_of_gt hScale), Int.ofNat_eq_natCast]
      split <;> omega
  · next hBroken =>
      simp only [reduceCtorEq, false_iff]
      intro hUnits
      apply hBroken
      have hRest : (x.units : ℤ) % scale = 0 := by
        rw [hUnits]
        exact Int.mul_emod_left _ _
      simp only [beq_iff_eq]
      exact_mod_cast hRest

/- Without its sign, a number is its units. -/
theorem units_eq_of_value
    (hValue : x.value = n) :
    x.units = n.natAbs * Nat.pow 2 1074 := by
  have hUnits := value_eq_intCast_iff.mp hValue
  have hScale := scale_pos
  generalize Nat.pow 2 1074 = scale at *
  have hAbs := congrArg Int.natAbs hUnits
  rw [Int.natAbs_mul, Int.natAbs_natCast,
    Int.natAbs_natCast] at hAbs
  rw [hAbs]
  split <;> simp

------------------------------------------------------------
-- The Order of Magnitudes
------------------------------------------------------------

/- A number at a later place has a greater magnitude. -/
theorem units_lt_units
    (hPlaces : x.ordinal < y.ordinal) :
    x.units < y.units := by
  have hFirst := x.ordinal_eq
  have hSecond := y.ordinal_eq
  have hMost := x.significand_lt
  have hLeast := @le_significand y
  unfold units
  rw [pow_two_52] at *
  by_cases hSame : x.exponent = y.exponent
  · rw [hSame]
    apply Nat.mul_lt_mul_of_pos_right
    · rw [hSame] at hFirst
      omega
    · exact Nat.pow_pos (by decide)
  · -- The place tells the exponent before the significand.
    have hNext : x.exponent + 1 ≤ y.exponent := by
      have hSize := y.significand_lt
      rw [pow_two_52] at hSize
      by_contra hLess
      have hScaled := @le_significand x (by omega)
      rw [pow_two_52] at hScaled
      have hGap :
          (y.exponent + 1) * 4503599627370496 ≤
            x.exponent * 4503599627370496 :=
        Nat.mul_le_mul_right _ (by omega)
      omega
    calc
      x.significand * Nat.pow 2 x.exponent
        < 2 * 4503599627370496 * Nat.pow 2 x.exponent :=
          Nat.mul_lt_mul_of_pos_right hMost
            (Nat.pow_pos (by decide))
      _ = 4503599627370496 * 2 ^ (x.exponent + 1) := by
          rw [Nat.pow_eq, Nat.pow_succ]
          omega
      _ ≤ 4503599627370496 * 2 ^ y.exponent :=
          Nat.mul_le_mul_left _
            (Nat.pow_le_pow_right (by decide) hNext)
      _ ≤ y.significand * Nat.pow 2 y.exponent :=
          Nat.mul_le_mul_right _ (hLeast (by omega))

/- Places are in the order of their magnitudes. -/
theorem units_lt_units_iff :
    x.units < y.units ↔ x.ordinal < y.ordinal := by
  refine ⟨fun hUnits => ?_, units_lt_units⟩
  rcases Nat.lt_trichotomy x.ordinal y.ordinal with
    hLess | hSame | hMore
  · exact hLess
  · have hEq : x.units = y.units := by
      simp [units, significand, exponent, hSame]
    omega
  · have hMore := units_lt_units hMore
    omega

------------------------------------------------------------
-- Signed Integers
------------------------------------------------------------

/- The least signed integer of 64 bits, in binary. -/
def leastSigned : Binary64 where
  negative := true
  ordinal := 1086 * Nat.pow 2 52
  ordinal_lt := by decide

/- At its scale, the units of a whole are fewer. -/
theorem pow_two_scale :
    Nat.pow 2 (11 + 1074) = 2048 * Nat.pow 2 1074 := by
  generalize 1074 = power
  rw [Nat.pow_eq, Nat.pow_eq, Nat.pow_add]

/- Its magnitude is the first one above the greatest. -/
theorem units_leastSigned :
    leastSigned.units =
      9223372036854775808 * Nat.pow 2 1074 := by
  have hExponent : leastSigned.exponent = 11 + 1074 := rfl
  have hSignificand :
      leastSigned.significand = 4503599627370496 := rfl
  rw [units, hExponent, hSignificand, pow_two_scale]
  generalize Nat.pow 2 1074 = scale
  omega

/- Its value is what it is called for. -/
theorem value_leastSigned :
    leastSigned.value = (-9223372036854775808 : Int) := by
  rw [value_eq_intCast_iff, units_leastSigned]
  generalize Nat.pow 2 1074 = scale
  exact Nat.cast_mul _ _

/- And the greatest signed integer is rounded up to it. -/
theorem ordinal_ofInt_greatest :
    (ofInt 9223372036854775807).ordinal =
      leastSigned.ordinal := by
  decide +kernel

/- An integer is at an earlier place if it has 63 bits. -/
theorem ordinal_lt_leastSigned_iff
    (hValue : x.value = n) :
    x.ordinal < leastSigned.ordinal ↔
      n.natAbs < 9223372036854775808 := by
  rw [← units_lt_units_iff, units_leastSigned,
    units_eq_of_value hValue]
  have hScale := scale_pos
  generalize Nat.pow 2 1074 = scale at *
  exact Nat.mul_lt_mul_right hScale

/- What is taken for a signed integer has 63 bits. -/
theorem toSigned?_eq_some_iff :
    x.toSigned? = some n ↔
      x.value = n ∧ n.natAbs < 9223372036854775808 := by
  unfold toSigned?
  rw [Option.filter_eq_some_iff, decide_eq_true_eq,
    ordinal_ofInt_greatest, whole?_eq_some_iff]
  exact and_congr_right ordinal_lt_leastSigned_iff

/- No other number has the least value. -/
theorem eq_leastSigned
    (hValue : x.value = (-9223372036854775808 : Int)) :
    x = leastSigned := by
  have hUnits : x.units = leastSigned.units := by
    rw [units_eq_of_value hValue, units_leastSigned]
    generalize Nat.pow 2 1074 = scale
    rfl
  have hNegative : x.negative = true := by
    have hSigned := value_eq_intCast_iff.mp hValue
    have hScale := scale_pos
    generalize Nat.pow 2 1074 = scale at *
    by_contra hPositive
    rw [if_neg hPositive] at hSigned
    omega
  have hOrdinal : x.ordinal = leastSigned.ordinal := by
    have hLess := @units_lt_units_iff x leastSigned
    have hMore := @units_lt_units_iff leastSigned x
    rw [hUnits] at hLess hMore
    omega
  cases x
  simp_all [leastSigned]

------------------------------------------------------------
-- Integers Above the Range
------------------------------------------------------------

/- Rounding is at most one step up. -/
theorem roundHalfEven_bounds (numerator denominator : Nat) :
    numerator / denominator ≤
        roundHalfEven numerator denominator ∧
      roundHalfEven numerator denominator ≤
        numerator / denominator + 1 := by
  unfold roundHalfEven
  dsimp only
  split
  · omega
  · split <;> omega

/-
  An integer above the range has 64 bits, and so it is rounded
  to a magnitude that is above the range as well.
-/
theorem leastSigned_le_nearestOrdinal
    {n : Nat}
    (hLow : 9223372036854775808 ≤ n)
    (hHigh : n < 18446744073709551616) :
    1086 * Nat.pow 2 52 ≤ nearestOrdinal n 1 ∧
      nearestOrdinal n 1 < 2047 * Nat.pow 2 52 := by
  have hNearest :=
    @nearestOrdinal_at n 1 (11 + 1074) Nat.one_pos
  have hBounds :=
    roundHalfEven_bounds (n * Nat.pow 2 1074)
      (Nat.pow 2 (11 + 1074) * 1)
  have hScale := scale_pos
  rw [pow_two_scale] at hNearest hBounds
  generalize Nat.pow 2 1074 = scale at *
  rw [Nat.mul_one, pow_two_52] at *
  have hLeast := Nat.mul_le_mul_right scale hLow
  have hMost := Nat.mul_lt_mul_of_pos_right hHigh hScale
  have hQuotient :
      n * scale / (2048 * scale) = n / 2048 :=
    Nat.mul_div_mul_right n 2048 hScale
  rw [hQuotient] at hBounds
  rw [hNearest (by omega) (by omega)]
  omega

/- The same for the integer as it is read. -/
theorem leastSigned_le_ofInt
    {n : Int}
    (hLow : 9223372036854775808 ≤ n)
    (hHigh : n < 18446744073709551616) :
    leastSigned.ordinal ≤ (ofInt n).ordinal := by
  have hPlace :=
    @leastSigned_le_nearestOrdinal n.natAbs (by omega)
      (by omega)
  unfold ofInt ofRatio?
  dsimp only
  generalize nearestOrdinal n.natAbs 1 = ordinal at *
  rw [dif_pos hPlace.2]
  exact hPlace.1

/- So no integer above the range is taken for one in it. -/
theorem toSigned?_ofInt_of_large
    {n : Int}
    (hLow : 9223372036854775808 ≤ n)
    (hHigh : n < 18446744073709551616) :
    (ofInt n).toSigned? = none := by
  rw [Option.eq_none_iff_forall_ne_some]
  intro signed hSigned
  rcases toSigned?_eq_some_iff.mp hSigned with
    ⟨hValue, hLess⟩
  have hPlace := (ordinal_lt_leastSigned_iff hValue).mpr hLess
  have hLeast := leastSigned_le_ofInt hLow hHigh
  omega

end Binary64

------------------------------------------------------------
-- Numbers of Both Kinds
------------------------------------------------------------

namespace Number

/- The value of a number of either kind. -/
def value : Number → ℚ
  | .integer value _ => value
  | .binary x => x.value

/- An integer that has a place among those of 64 bits. -/
def IsSigned (n : Int) : Prop :=
  -9223372036854775808 ≤ n ∧ n ≤ 9223372036854775807

/- The least signed integer is one. -/
theorem isSigned_least : IsSigned (-9223372036854775808) := by
  unfold IsSigned
  omega

/-
  A number is taken for its own value if that is a signed
  integer, and for no other. One number is not taken for what
  it is: the least integer in binary.
-/
theorem toInteger?_eq_some_iff
    {n : Number}
    {signed : Int} :
    n.toInteger? = some signed ↔
      n.value = signed ∧ IsSigned signed ∧
        n ≠ .binary .leastSigned := by
  unfold toInteger? IsSigned
  cases n with
  | integer written hRange =>
      have hSame : (written : ℚ) = signed ↔ written = signed := by
        exact_mod_cast Iff.rfl
      simp only [signed?, value, toBinary, hSame, ne_eq,
        reduceCtorEq, not_false_eq_true, and_true]
      by_cases hWritten : written ≤ 9223372036854775807
      · simp only [hWritten, if_true, Option.some.injEq]
        omega
      · simp only [hWritten, if_false,
          Binary64.toSigned?_ofInt_of_large
            (show 9223372036854775808 ≤ written by omega)
            hRange.2]
        simp only [reduceCtorEq, false_iff]
        omega
  | binary x =>
      simp only [signed?, value, toBinary,
        Binary64.toSigned?_eq_some_iff, ne_eq,
        Number.binary.injEq]
      constructor
      · rintro ⟨hValue, hLess⟩
        refine ⟨hValue, by omega, ?_⟩
        rintro rfl
        have hPlace :=
          (Binary64.ordinal_lt_leastSigned_iff hValue).mpr hLess
        omega
      · rintro ⟨hValue, hSigned, hOther⟩
        refine ⟨hValue, ?_⟩
        by_contra hMore
        have hLeast : signed = -9223372036854775808 := by omega
        rw [hLeast] at hValue
        exact hOther (Binary64.eq_leastSigned hValue)

end Number

end PipelineScript
