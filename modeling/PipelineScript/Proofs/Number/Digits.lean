import Mathlib.Algebra.Group.Nat.Defs
import PipelineScript.Number.Digits
import PipelineScript.Number.Layout

/-
  Natural numbers and the digits they are written with.

  Key theorems include:
    * `Number.digitsValue_natText`
    * `Number.digitsValue_append`
    * `Number.exists_natText_cons`
    * `Number.lt_pow_length_natText`
    * `Number.pow_length_natText_le`
-/

namespace PipelineScript

namespace Number

------------------------------------------------------------
-- Values of Digits
------------------------------------------------------------

/- Digits are read from left to right. -/
theorem digitsValue_eq (digits : List Char) :
    digitsValue digits = Nat.ofDigitChars 10 digits 0 := by
  rw [digitsValue, Nat.ofDigitChars_eq_foldl]
  simp only [Nat.mul_comm 10]

/- The digits behind others are worth what they are alone. -/
theorem digitsValue_append
    (front back : List Char) :
    digitsValue (front ++ back) =
      digitsValue front * 10 ^ back.length
        + digitsValue back := by
  rw [digitsValue_eq, Nat.ofDigitChars_append,
    Nat.ofDigitChars_eq_ofDigitChars_zero, digitsValue_eq,
    digitsValue_eq, Nat.mul_comm]

/- Zeros are worth nothing. -/
theorem digitsValue_replicate_zero (count : Nat) :
    digitsValue (List.replicate count '0') = 0 := by
  rw [digitsValue_eq, Nat.ofDigitChars_replicate_zero,
    Nat.mul_zero]

------------------------------------------------------------
-- Numbers That Are Written Out
------------------------------------------------------------

/- The digits of a number are worth the number. -/
theorem digitsValue_natText (n : Nat) :
    digitsValue (natText n) = n := by
  rw [digitsValue_eq]
  exact Nat.ofDigitChars_ten_toDigits

/- A number is written in digits. -/
theorem isDigit_of_mem_natText
    {n : Nat}
    {c : Char}
    (hMem : c ∈ natText n) :
    c.isDigit :=
  Nat.isDigit_of_mem_toDigits (by decide) (by decide) hMem

/- A number has a digit. -/
theorem natText_ne_nil (n : Nat) : natText n ≠ [] :=
  Nat.toDigits_ne_nil

/- A number that is not zero does not begin with a zero. -/
theorem exists_natText_cons
    {n : Nat}
    (hPos : n ≠ 0) :
    ∃ c tail, natText n = c :: tail ∧ c ≠ '0' := by
  induction n using Nat.strongRecOn with
  | ind n ih =>
      rw [natText, Nat.toDigits_eq_if (by decide)]
      split
      · refine ⟨_, [], rfl, ?_⟩
        rw [ne_eq, Nat.digitChar_eq_zero]
        exact hPos
      · next hLarge =>
          rcases ih (n / 10) (by omega) (by omega) with
            ⟨c, tail, hText, hHead⟩
          rw [natText] at hText
          exact ⟨c, _, by rw [hText, List.cons_append], hHead⟩

/- A number is less than the power of ten of its length. -/
theorem lt_pow_length_natText (n : Nat) :
    n < 10 ^ (natText n).length :=
  (Nat.length_toDigits_le_iff (by decide)
    Nat.length_toDigits_pos).mp (Nat.le_refl _)

/- A number is at least the power of ten of one digit less. -/
theorem pow_length_natText_le
    {n : Nat}
    (hPos : n ≠ 0) :
    10 ^ ((natText n).length - 1) ≤ n := by
  have hLength : 0 < (natText n).length :=
    Nat.length_toDigits_pos
  by_cases hOne : (natText n).length = 1
  · rw [hOne]
    exact Nat.one_le_iff_ne_zero.mpr hPos
  · apply Nat.le_of_not_lt
    intro hLess
    have hShort :=
      (Nat.length_toDigits_le_iff (by decide)
        (by omega)).mpr hLess
    change (natText n).length ≤ _ at hShort
    omega

end Number

end PipelineScript
