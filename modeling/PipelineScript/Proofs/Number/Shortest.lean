import PipelineScript.Proofs.Number.Rounding

/-
  The shortest decimal of a number lies in its interval, and
  so it is read as the number.

  Key theorems include:
    * `Binary64.holds_of_onGrid?`
    * `Binary64.holds_shortest`
-/

namespace PipelineScript

namespace Binary64

variable {tie : TieRule} {interval : Rounding}

------------------------------------------------------------
-- Decimals on a Grid
------------------------------------------------------------

/- A multiple of a power of ten, in quarters. -/
theorem value_on_grid
    (n : Nat)
    (exponent : Int) :
    Decimal.value ⟨n, exponent⟩ * 2 ^ 1076 =
      ((n * ((if exponent < 0 then
              1
            else
              Nat.pow 10 exponent.natAbs) * Nat.pow 2 1076) :
          Nat) : ℚ) /
        ((if exponent < 0 then
            Nat.pow 10 exponent.natAbs
          else
            1 : Nat) : ℚ) := by
  unfold Decimal.value
  -- The power is only multiplied, and never worked out.
  generalize 1076 = power
  rw [Nat.pow_eq, Nat.pow_eq]
  split
  · next hNegative =>
      have hPower :
          exponent = -((exponent.natAbs : Nat) : ℤ) := by
        omega
      dsimp only
      conv_lhs => rw [hPower, zpow_neg, zpow_natCast]
      push_cast
      rw [div_eq_mul_inv]
      ring
  · next hPositive =>
      have hPower :
          exponent = ((exponent.natAbs : Nat) : ℤ) := by
        omega
      dsimp only
      conv_lhs => rw [hPower, zpow_natCast]
      push_cast
      ring

/- What the test of a multiple says about its value. -/
theorem Rounding.holds_of_test
    {value : ℚ}
    {multiple scale : Nat}
    (hScale : 0 < scale)
    (hValue :
      value * 2 ^ 1076 = (multiple : ℚ) / (scale : ℚ))
    (hTest :
      (if interval.closed then
          decide (interval.low * scale ≤ multiple)
            && decide (multiple ≤ interval.high * scale)
        else
          decide (interval.low * scale < multiple)
            && decide (multiple < interval.high * scale)) =
        true) :
    interval.Holds value := by
  have hPos : (0 : ℚ) < (scale : ℚ) := by
    exact_mod_cast hScale
  cases hClosed : interval.closed with
  | true =>
      rw [hClosed, if_pos rfl, Bool.and_eq_true,
        decide_eq_true_eq, decide_eq_true_eq] at hTest
      constructor
      · rw [hValue, le_div_iff₀ hPos]
        exact_mod_cast hTest.1
      · rw [hValue, div_le_iff₀ hPos]
        exact_mod_cast hTest.2
      · intro hOpen
        rw [hClosed] at hOpen
        exact absurd hOpen (by decide)
  | false =>
      rw [hClosed, if_neg (by decide), Bool.and_eq_true,
        decide_eq_true_eq, decide_eq_true_eq] at hTest
      have hLow : (interval.low : ℚ) < value * 2 ^ 1076 := by
        rw [hValue, lt_div_iff₀ hPos]
        exact_mod_cast hTest.1
      have hHigh : value * 2 ^ 1076 < (interval.high : ℚ) := by
        rw [hValue, div_lt_iff₀ hPos]
        exact_mod_cast hTest.2
      exact ⟨hLow.le, hHigh.le, fun _ => ⟨hLow, hHigh⟩⟩

/- A decimal that is taken from a grid lies in the interval. -/
theorem holds_of_onGrid?
    {exponent : Int}
    {decimal : Decimal}
    (hGrid : onGrid? tie interval exponent = some decimal) :
    interval.Holds decimal.value := by
  have hScale :
      0 <
        (if exponent < 0 then
          Nat.pow 10 exponent.natAbs
        else
          1) := by
    split
    · exact Nat.pow_pos (by decide)
    · exact Nat.one_pos
  have hValue (n : Nat) := value_on_grid n exponent
  unfold onGrid? at hGrid
  dsimp only at hGrid
  generalize (if exponent < 0 then
      Nat.pow 10 exponent.natAbs
    else
      1) = scale at *
  generalize (if exponent < 0 then
      1
    else
      Nat.pow 10 exponent.natAbs) * Nat.pow 2 1076 = unit at *
  generalize interval.middle * scale / unit = below at hGrid
  generalize interval.middle * scale % unit = rest at hGrid
  split at hGrid
  · next hBelow hAbove =>
      rw [Option.some.injEq] at hGrid
      subst hGrid
      split
      · exact Rounding.holds_of_test hScale (hValue _) hAbove
      · exact Rounding.holds_of_test hScale (hValue _) hBelow
  · next hBelow _ =>
      rw [Option.some.injEq] at hGrid
      subst hGrid
      exact Rounding.holds_of_test hScale (hValue _) hBelow
  · next _ hAbove =>
      rw [Option.some.injEq] at hGrid
      subst hGrid
      exact Rounding.holds_of_test hScale (hValue _) hAbove
  · simp at hGrid

------------------------------------------------------------
-- The Shortest Decimal
------------------------------------------------------------

/- The middle of an interval lies between its ends. -/
theorem holds_middle
    {x : Binary64}
    (hNonzero : x.isZero = false)
    {value : ℚ}
    (hValue : value * 2 ^ 1076 = ((4 * x.units : Nat) : ℚ)) :
    x.rounding.Holds value := by
  have hScale : 0 < Nat.pow 2 x.exponent :=
    Nat.pow_pos (by decide)
  rcases exists_low_eq hNonzero with ⟨step, hStep, hSteps⟩
  have hLeast :
      1 * Nat.pow 2 x.exponent ≤ step * Nat.pow 2 x.exponent :=
    Nat.mul_le_mul_right _ (by omega)
  have hUnits :
      4 * x.units =
        4 * x.significand * Nat.pow 2 x.exponent := by
    rw [units, Nat.mul_assoc]
  have hHigh := x.high_eq
  have hBetween :
      x.rounding.low < 4 * x.units ∧
        4 * x.units < x.rounding.high := by
    omega
  have hLow : (x.rounding.low : ℚ) < value * 2 ^ 1076 := by
    rw [hValue, Nat.cast_lt]
    exact hBetween.1
  have hHigh : value * 2 ^ 1076 < (x.rounding.high : ℚ) := by
    rw [hValue, Nat.cast_lt]
    exact hBetween.2
  exact ⟨hLow.le, hHigh.le, fun _ => ⟨hLow, hHigh⟩⟩

/- Every magnitude is some multiple of a power of ten. -/
theorem value_exact (units : Nat) :
    Decimal.value ⟨units * Nat.pow 5 1074, -1074⟩ * 2 ^ 1076 =
      ((4 * units : Nat) : ℚ) := by
  rw [show (-1074 : ℤ) = -((1074 : Nat) : ℤ) from rfl,
    show 1076 = 2 + 1074 from rfl]
  generalize 1074 = power
  have hTen : (10 : ℚ) ^ power = 5 ^ power * 2 ^ power := by
    rw [← mul_pow]
    norm_num
  have hPos : (5 : ℚ) ^ power * 2 ^ power ≠ 0 := by positivity
  rw [Decimal.value, zpow_neg, zpow_natCast, hTen, Nat.pow_eq]
  push_cast
  field_simp
  ring

/- The shortest decimal lies in the interval of its number. -/
theorem holds_shortest
    (tie : TieRule)
    {x : Binary64}
    (hNonzero : x.isZero = false) :
    x.rounding.Holds (x.shortest tie).value := by
  unfold shortest
  dsimp only
  generalize hFound : List.findSome? _ _ = found
  cases found with
  | none =>
      exact holds_middle hNonzero (value_exact x.units)
  | some decimal =>
      rcases List.exists_of_findSome?_eq_some hFound with
        ⟨exponent, -, hGrid⟩
      exact holds_of_onGrid? hGrid

end Binary64

end PipelineScript
