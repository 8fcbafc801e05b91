import PipelineScript.Json.Scan
import PipelineScript.Proofs.Number.Shortest

/-
  The numerals that numbers are written as.

  The decimal of such a numeral lies in the interval of the
  number. It is read to its end wherever nothing behind it goes
  on with it, and an integer is read back. A binary number may
  be read as another one, as it is not rounded only once.

  Key definitions include:
    * `Json.EndsNumber`
    * `Json.Numeral.text`
    * `Json.Numeral.IsWellFormed`

  Key theorems include:
    * `Json.scanNumeral_text`
    * `Json.exists_numeral_of_binary`
    * `Json.readNumber_append`
-/

namespace PipelineScript

namespace Json

------------------------------------------------------------
-- What Follows a Number
------------------------------------------------------------

/- A character that goes on with a number in front of it. -/
def goesOn (c : Char) : Bool :=
  c.isDigit || c == '.' || c == 'e' || c == 'E'

/- What follows does not go on with the number before it. -/
def EndsNumber (rest : List Char) : Prop :=
  ∀ c ∈ rest.head?, goesOn c = false

/- Nothing goes on with no number. -/
theorem endsNumber_nil : EndsNumber [] := by
  simp [EndsNumber]

/- Only the first character counts. -/
theorem endsNumber_cons
    {c : Char}
    {rest : List Char}
    (hEnds : goesOn c = false) :
    EndsNumber (c :: rest) := by
  simpa [EndsNumber] using hEnds

/- A run of digits ends there. -/
theorem EndsNumber.takeWhile_eq_nil
    {rest : List Char}
    (hEnds : EndsNumber rest) :
    rest.takeWhile Char.isDigit = [] := by
  cases rest with
  | nil => rfl
  | cons c rest =>
      have hHead := hEnds c rfl
      simp only [goesOn, Bool.or_eq_false_iff] at hHead
      simp [hHead.1]

------------------------------------------------------------
-- Runs of Digits
------------------------------------------------------------

/- One digit at least, and nothing else. -/
structure IsRun (digits : List Char) : Prop where
  ne_nil : digits ≠ []
  isDigit : ∀ c ∈ digits, c.isDigit

/- A run begins with a digit. -/
theorem IsRun.exists_cons
    {digits : List Char}
    (hRun : IsRun digits) :
    ∃ c tail, digits = c :: tail ∧ c.isDigit := by
  cases digits with
  | nil => exact absurd rfl hRun.ne_nil
  | cons c tail =>
      exact ⟨c, tail, rfl, hRun.isDigit c List.mem_cons_self⟩

variable {atEnd : Fault} {digits rest : List Char}

/- A run is read up to its end. -/
theorem digitRun_append
    (atEnd : Fault)
    (hRun : IsRun digits)
    (hRest : rest.takeWhile Char.isDigit = []) :
    digitRun atEnd (digits ++ rest) = .ok (digits, rest) := by
  have hTake :
      (digits ++ rest).takeWhile Char.isDigit = digits := by
    rw [List.takeWhile_append_of_pos hRun.isDigit, hRest,
      List.append_nil]
  have hDrop :
      (digits ++ rest).dropWhile Char.isDigit = rest := by
    have hWhole :=
      List.takeWhile_append_dropWhile
        (p := Char.isDigit) (l := digits ++ rest)
    rw [hTake] at hWhole
    exact List.append_cancel_left hWhole
  rcases hRun.exists_cons with ⟨c, tail, rfl, hDigit⟩
  rw [digitRun.eq_def]
  dsimp only [List.cons_append] at hTake hDrop ⊢
  rw [if_pos hDigit, hTake, hDrop]

/- So is one in front of a point, without a zero in front. -/
theorem wholeRun_append
    (hRun : IsRun digits)
    (hZero : digits = ['0'] ∨ digits.head? ≠ some '0')
    (hRest : rest.takeWhile Char.isDigit = []) :
    wholeRun atEnd (digits ++ rest) = .ok (digits, rest) := by
  have hAll := digitRun_append atEnd hRun hRest
  unfold wholeRun
  split
  · next c tail hText =>
      rcases hZero with rfl | hHead
      · rw [List.singleton_append, List.cons.injEq] at hText
        rw [hText.2] at hRest ⊢
        rw [List.takeWhile_cons] at hRest
        split at hRest
        · simp at hRest
        · next hDigit =>
            rw [if_neg hDigit]
      · rcases hRun.exists_cons with ⟨first, _, rfl, -⟩
        rw [List.cons_append, List.cons.injEq] at hText
        exact absurd (congrArg some hText.1) hHead
  · exact hAll

------------------------------------------------------------
-- Numerals
------------------------------------------------------------

namespace Numeral

/- The fraction of a numeral as text. -/
def fractionText : Option (List Char) → List Char
  | none => []
  | some digits => '.' :: digits

/- The power of a numeral as text, always with a sign. -/
def powerText : Option (Bool × List Char) → List Char
  | none => []
  | some (negative, digits) =>
      'e' :: (if negative then '-' else '+') :: digits

/- A numeral behind its sign, as text. -/
def magnitudeText (numeral : Numeral) : List Char :=
  numeral.whole ++ fractionText numeral.fraction
    ++ powerText numeral.power

/- A numeral as text. -/
def text (numeral : Numeral) : List Char :=
  if numeral.negative then
    '-' :: numeral.magnitudeText
  else
    numeral.magnitudeText

/- Every part of a numeral has digits, without a zero first. -/
structure IsWellFormed (numeral : Numeral) : Prop where
  whole : IsRun numeral.whole
  zero :
    numeral.whole = ['0'] ∨ numeral.whole.head? ≠ some '0'
  fraction : ∀ digits ∈ numeral.fraction, IsRun digits
  power : ∀ power ∈ numeral.power, IsRun power.2

end Numeral

/- A numeral begins with its sign or with a digit. -/
theorem Numeral.IsWellFormed.exists_text_cons
    {numeral : Numeral}
    (hWell : numeral.IsWellFormed) :
    ∃ c tail, numeral.text = c :: tail ∧
      (c == '-' || c.isDigit) := by
  rcases hWell.whole.exists_cons with ⟨c, tail, hWhole, hDigit⟩
  rw [Numeral.text]
  split
  · exact ⟨_, _, rfl, rfl⟩
  · rw [Numeral.magnitudeText, hWhole]
    exact ⟨c, _, rfl, by simp [hDigit]⟩

/- Such a character is none that begins no number. -/
theorem ne_of_beginsNumber
    {c : Char}
    (hHead : c == '-' || c.isDigit)
    (other : Char)
    (hOther : (other == '-' || other.isDigit) = false) :
    c ≠ other := by
  rintro rfl
  rw [hHead] at hOther
  exact absurd hOther (by decide)

/- What follows a power of ten. -/
theorem powerRun_append
    {power : Option (Bool × List Char)}
    (hPower : ∀ part ∈ power, IsRun part.2)
    (hRest : EndsNumber rest) :
    powerRun atEnd (Numeral.powerText power ++ rest) =
      .ok (power, rest) := by
  cases power with
  | none =>
      cases rest with
      | nil => rfl
      | cons c rest =>
          have hHead := hRest c rfl
          simp only [goesOn, Bool.or_eq_false_iff] at hHead
          simp [Numeral.powerText, powerRun, hHead.1.2, hHead.2]
  | some power =>
      rcases power with ⟨negative, digits⟩
      have hRun :=
        digitRun_append atEnd (hPower (negative, digits) rfl)
          hRest.takeWhile_eq_nil
      cases negative with
      | true =>
          simp [Numeral.powerText, powerRun, hRun, bind,
            Except.bind]
      | false =>
          simp [Numeral.powerText, powerRun, hRun, bind,
            Except.bind]

/- Neither a power nor what ends a number begins a run. -/
theorem takeWhile_powerText
    (power : Option (Bool × List Char))
    (hRest : EndsNumber rest) :
    (Numeral.powerText power ++ rest).takeWhile Char.isDigit =
      [] := by
  cases power with
  | none => exact hRest.takeWhile_eq_nil
  | some power => rfl

/- What follows a fraction. -/
theorem fractionRun_append
    {fraction : Option (List Char)}
    (power : Option (Bool × List Char))
    (hFraction : ∀ digits ∈ fraction, IsRun digits)
    (hRest : EndsNumber rest) :
    fractionRun atEnd
        (Numeral.fractionText fraction
          ++ (Numeral.powerText power ++ rest)) =
      .ok (fraction, Numeral.powerText power ++ rest) := by
  cases fraction with
  | none =>
      have hHead :
          (Numeral.powerText power ++ rest).head? ≠
            some '.' := by
        cases power with
        | none =>
            intro hPoint
            have hEnds := hRest '.' hPoint
            exact absurd hEnds (by decide)
        | some power => simp [Numeral.powerText]
      rw [Numeral.fractionText, List.nil_append]
      unfold fractionRun
      split
      · next tail hText =>
          rw [hText] at hHead
          exact absurd rfl hHead
      · rfl
  | some digits =>
      have hRun :=
        digitRun_append atEnd (hFraction digits rfl)
          (takeWhile_powerText power hRest)
      simp [Numeral.fractionText, fractionRun, hRun, bind,
        Except.bind]

/- A numeral is read back from its text. -/
theorem scanNumeral_text
    {numeral : Numeral}
    (hWell : numeral.IsWellFormed)
    (hRest : EndsNumber rest) :
    scanNumeral atEnd (numeral.text ++ rest) =
      .ok (numeral, rest) := by
  have hTake :
      (Numeral.fractionText numeral.fraction
          ++ (Numeral.powerText numeral.power
            ++ rest)).takeWhile Char.isDigit =
        [] := by
    cases numeral.fraction with
    | none => exact takeWhile_powerText numeral.power hRest
    | some digits => rfl
  have hMagnitude (negative : Bool) :
      scanMagnitude atEnd negative
          (numeral.magnitudeText ++ rest) =
        .ok ({ numeral with negative := negative }, rest) := by
    rw [Numeral.magnitudeText, List.append_assoc,
      List.append_assoc]
    simp only [scanMagnitude,
      wholeRun_append hWell.whole hWell.zero hTake,
      fractionRun_append numeral.power hWell.fraction hRest,
      powerRun_append hWell.power hRest, bind, Except.bind]
  rcases hWell.whole.exists_cons with ⟨c, tail, hWhole, hDigit⟩
  unfold Numeral.text scanNumeral
  cases hSign : numeral.negative with
  | true =>
      simp only [if_true, List.cons_append]
      rw [hMagnitude, ← hSign]
  | false =>
      simp only [Bool.false_eq_true, if_false]
      split
      · next rest' hText =>
          rw [Numeral.magnitudeText, hWhole, List.append_assoc,
            List.append_assoc, List.cons_append,
            List.cons.injEq] at hText
          rw [hText.1] at hDigit
          exact absurd hDigit (by decide)
      · rw [hMagnitude, ← hSign]

------------------------------------------------------------
-- Numerals That Are Written
------------------------------------------------------------

/- A number is written as a run of digits. -/
theorem isRun_natText (n : Nat) :
    IsRun (Number.natText n) where
  ne_nil := Number.natText_ne_nil n
  isDigit := fun _ hMem => Number.isDigit_of_mem_natText hMem

/- Zeros are digits. -/
theorem isDigit_of_mem_zeros
    {count : Nat}
    {c : Char}
    (hMem : c ∈ List.replicate count '0') :
    c.isDigit := by
  rw [(List.mem_replicate.mp hMem).2]
  decide

/- More digits make a run longer. -/
theorem IsRun.append
    {front back : List Char}
    (hFront : ∀ c ∈ front, c.isDigit)
    (hBack : IsRun back) :
    IsRun (front ++ back) where
  ne_nil := by simp [hBack.ne_nil]
  isDigit := by
    rw [List.forall_mem_append]
    exact ⟨hFront, hBack.isDigit⟩

/- Zeros behind digits are worth a power of ten. -/
theorem value_mul_pow
    (digits power : Nat)
    (exponent : Int) :
    Decimal.value ⟨digits * 10 ^ power, exponent⟩ =
      Decimal.value ⟨digits, power + exponent⟩ := by
  rw [Decimal.value, Decimal.value, Nat.cast_mul,
    Nat.cast_pow, Nat.cast_ofNat, zpow_add₀ (by norm_num),
    zpow_natCast, mul_assoc]

/-
  A text without a sign is a numeral that is worth a decimal.
  It has a fraction or a power, and so it is no integer.
-/
structure Numeral.Writes
    (decimal : Decimal)
    (text : List Char)
    (numeral : Numeral) : Prop where
  isWellFormed : numeral.IsWellFormed
  text_eq : text = numeral.magnitudeText
  value_eq : numeral.decimal.value = decimal.value
  isBinary : numeral.fraction.isSome || numeral.power.isSome

section Layouts

variable {decimal : Decimal}

/- All digits stand in front of the point, and zeros behind. -/
theorem writes_whole
    (negative : Bool)
    (hDigits : decimal.digits ≠ 0)
    (hExponent : 0 ≤ decimal.exponent) :
    Numeral.Writes decimal
      (Number.natText decimal.digits
        ++ List.replicate decimal.exponent.natAbs '0'
        ++ ['.', '0'])
      ⟨negative,
        Number.natText decimal.digits
          ++ List.replicate decimal.exponent.natAbs '0',
        some ['0'], none⟩ where
  isWellFormed := by
    have hRun := isRun_natText decimal.digits
    rcases Number.exists_natText_cons hDigits with
      ⟨c, tail, hText, hHead⟩
    refine ⟨⟨?_, ?_⟩, Or.inr ?_, ?_, ?_⟩
    · simp [hRun.ne_nil]
    · rw [List.forall_mem_append]
      exact ⟨hRun.isDigit, fun _ => isDigit_of_mem_zeros⟩
    · rw [hText]
      simpa using hHead
    · rintro _ ⟨⟩
      exact ⟨by simp, by simp⟩
    · rintro _ ⟨⟩
  text_eq := by
    simp [Numeral.magnitudeText, Numeral.fractionText,
      Numeral.powerText]
  value_eq := by
    have hZeros :
        Number.digitsValue
            (Number.natText decimal.digits
              ++ List.replicate decimal.exponent.natAbs '0'
              ++ ['0']) =
          decimal.digits
            * 10 ^ (decimal.exponent.natAbs + 1) := by
      rw [List.append_assoc, ← List.replicate_succ',
        Number.digitsValue_append,
        Number.digitsValue_replicate_zero,
        Number.digitsValue_natText, List.length_replicate,
        Nat.add_zero]
    simp only [Numeral.decimal, Option.getD_some]
    rw [hZeros, value_mul_pow]
    congr 2
    simp
    omega
  isBinary := rfl

/- The point stands between two digits. -/
theorem writes_split
    (negative : Bool)
    (hDigits : decimal.digits ≠ 0)
    {place : Nat}
    (hPlace : 0 < place)
    (hExponent :
      place - (Number.natText decimal.digits).length =
        decimal.exponent)
    (hFraction : decimal.exponent < 0) :
    Numeral.Writes decimal
      ((Number.natText decimal.digits).take place
        ++ '.' :: (Number.natText decimal.digits).drop place)
      ⟨negative, (Number.natText decimal.digits).take place,
        some ((Number.natText decimal.digits).drop place),
        none⟩ where
  isWellFormed := by
    have hRun := isRun_natText decimal.digits
    rcases Number.exists_natText_cons hDigits with
      ⟨c, tail, hText, hHead⟩
    refine ⟨⟨?_, ?_⟩, Or.inr ?_, ?_, ?_⟩
    · simp [hRun.ne_nil]
      omega
    · intro c hMem
      exact hRun.isDigit c (List.mem_of_mem_take hMem)
    · rw [List.head?_take, if_neg (by omega), hText]
      simpa using hHead
    · rintro _ ⟨⟩
      constructor
      · simp
        omega
      · intro c hMem
        exact hRun.isDigit c (List.mem_of_mem_drop hMem)
    · rintro _ ⟨⟩
  text_eq := by
    simp [Numeral.magnitudeText, Numeral.fractionText,
      Numeral.powerText]
  value_eq := by
    simp only [Numeral.decimal, Option.getD_some]
    rw [List.take_append_drop, Number.digitsValue_natText,
      List.length_drop]
    congr 2
    omega
  isBinary := rfl

/- All digits stand behind the point, and zeros before them. -/
theorem writes_zeros
    (negative : Bool)
    {count : Nat}
    (hExponent :
      -(count : ℤ) - (Number.natText decimal.digits).length =
        decimal.exponent) :
    Numeral.Writes decimal
      (['0', '.'] ++ List.replicate count '0'
        ++ Number.natText decimal.digits)
      ⟨negative, ['0'],
        some (List.replicate count '0'
          ++ Number.natText decimal.digits), none⟩ where
  isWellFormed := by
    refine ⟨⟨by simp, by simp⟩, Or.inl rfl, ?_, ?_⟩
    · rintro _ ⟨⟩
      exact (isRun_natText _).append
        fun _ => isDigit_of_mem_zeros
    · rintro _ ⟨⟩
  text_eq := by
    simp [Numeral.magnitudeText, Numeral.fractionText,
      Numeral.powerText]
  value_eq := by
    have hZeros :
        Number.digitsValue
            (['0'] ++ (List.replicate count '0'
              ++ Number.natText decimal.digits)) =
          decimal.digits := by
      rw [← List.append_assoc, List.singleton_append,
        ← List.replicate_succ, Number.digitsValue_append,
        Number.digitsValue_replicate_zero,
        Number.digitsValue_natText, Nat.zero_mul, Nat.zero_add]
    simp only [Numeral.decimal, Option.getD_some]
    rw [hZeros, List.length_append, List.length_replicate]
    congr 2
    omega
  isBinary := rfl

/- A decimal in positional form is a numeral. -/
theorem exists_writes_positional
    (negative : Bool)
    (hDigits : decimal.digits ≠ 0) :
    ∃ numeral : Numeral,
      numeral.negative = negative ∧
        numeral.Writes decimal
          (Number.Layout.positional
            (Number.natText decimal.digits)
            decimal.exponent) := by
  unfold Number.Layout.positional
  dsimp only
  split
  · next hWhole =>
      exact ⟨_, rfl, writes_whole negative hDigits hWhole⟩
  · split
    · next hPoint =>
        exact ⟨_, rfl, writes_split negative hDigits (by omega)
          (by omega) (by omega)⟩
    · exact ⟨_, rfl, writes_zeros negative (by omega)⟩

/- The decimal of a numeral with a power. -/
theorem decimal_of_power
    {numeral : Numeral}
    {power : Int}
    (hPower :
      numeral.power =
        some (decide (power < 0),
          Number.natText power.natAbs)) :
    numeral.decimal =
      ⟨Number.digitsValue
          (numeral.whole ++ numeral.fraction.getD []),
        power - (numeral.fraction.getD []).length⟩ := by
  rw [Numeral.decimal, hPower, Decimal.mk.injEq]
  refine ⟨rfl, ?_⟩
  by_cases hNegative : power < 0
  · simp only [hNegative, decide_true,
      Number.digitsValue_natText]
    have hAbs : -(power.natAbs : Int) = power := by omega
    rw [hAbs]
  · simp only [hNegative, decide_false,
      Number.digitsValue_natText]
    have hAbs : (power.natAbs : Int) = power := by omega
    rw [hAbs]

/- One digit in front of the point, and a power behind all. -/
theorem exists_writes_scientific
    (negative : Bool)
    (hDigits : decimal.digits ≠ 0) :
    ∃ numeral : Numeral,
      numeral.negative = negative ∧
        numeral.Writes decimal
          (Number.Layout.scientific
            (Number.natText decimal.digits)
            decimal.exponent) := by
  have hRun := isRun_natText decimal.digits
  have hValue := Number.digitsValue_natText decimal.digits
  rcases Number.exists_natText_cons hDigits with
    ⟨c, tail, hText, hHead⟩
  unfold Number.Layout.scientific
  dsimp only
  rw [hText] at hRun hValue ⊢
  have hFirst : IsRun [c] :=
    ⟨by simp, by simpa using hRun.isDigit c List.mem_cons_self⟩
  have hZero : [c] = ['0'] ∨ [c].head? ≠ some '0' :=
    Or.inr (by simpa using hHead)
  generalize hPower :
    ((c :: tail).length : ℤ) + decimal.exponent - 1 = power
  rw [List.length_cons] at hPower
  cases tail with
  | nil =>
      refine ⟨⟨negative, [c], none,
        some (power < 0, Number.natText power.natAbs)⟩, rfl,
        ⟨hFirst, hZero, ?_, ?_⟩, ?_, ?_, rfl⟩
      · rintro _ ⟨⟩
      · rintro _ ⟨⟩
        exact isRun_natText _
      · simp [Numeral.magnitudeText, Numeral.fractionText,
          Numeral.powerText]
      · rw [decimal_of_power rfl]
        simp only [Option.getD_none, List.append_nil, hValue]
        congr 2
        simp at hPower ⊢
        omega
  | cons d tail =>
      refine ⟨⟨negative, [c], some (d :: tail),
        some (power < 0, Number.natText power.natAbs)⟩, rfl,
        ⟨hFirst, hZero, ?_, ?_⟩, ?_, ?_, rfl⟩
      · rintro _ ⟨⟩
        exact ⟨by simp, fun c hMem =>
          hRun.isDigit c (List.mem_cons_of_mem _ hMem)⟩
      · rintro _ ⟨⟩
        exact isRun_natText _
      · simp [Numeral.magnitudeText, Numeral.fractionText,
          Numeral.powerText]
      · rw [decimal_of_power rfl]
        simp only [Option.getD_some, List.singleton_append,
          hValue]
        congr 2
        rw [List.length_cons] at hPower ⊢
        omega

end Layouts

------------------------------------------------------------
-- Numbers That Are Read Back
------------------------------------------------------------

/- A number that is not zero is written as a numeral of it. -/
theorem exists_writes_magnitude
    (layout : Number.Layout)
    {x : Binary64}
    (hNonzero : x.isZero = false) :
    ∃ numeral : Numeral,
      numeral.negative = x.negative ∧
        numeral.Writes (x.shortest layout.tie)
          (layout.magnitude x) := by
  have hHolds := Binary64.holds_shortest layout.tie hNonzero
  have hDigits : (x.shortest layout.tie).digits ≠ 0 := by
    intro hZero
    have hLow := hHolds.low_le
    rw [Decimal.value, hZero, Nat.cast_zero, zero_mul, zero_mul]
      at hLow
    exact absurd (Binary64.low_pos hNonzero)
      (Nat.not_lt.mpr (by exact_mod_cast hLow))
  unfold Number.Layout.magnitude
  rw [if_neg (by simp [hNonzero])]
  dsimp only
  split
  · exact exists_writes_positional x.negative hDigits
  · exact exists_writes_scientific x.negative hDigits

/-
  A binary number is written as a numeral that it is nearest
  to, and that cannot be taken for an integer.
-/
theorem exists_numeral_of_binary
    (layout : Number.Layout)
    (x : Binary64) :
    ∃ numeral : Numeral,
      numeral.IsWellFormed ∧
        layout.render x = numeral.text ∧
        (numeral.fraction.isSome || numeral.power.isSome) ∧
        Binary64.ofDecimal? numeral.negative
            numeral.decimal.digits numeral.decimal.exponent =
          some x := by
  by_cases hZero : x.isZero = true
  · refine ⟨⟨x.negative, ['0'], some ['0'], none⟩,
      ⟨⟨by simp, by simp⟩, Or.inl rfl, ?_, ?_⟩, ?_, rfl, ?_⟩
    · rintro _ ⟨⟩
      exact ⟨by simp, by simp⟩
    · rintro _ ⟨⟩
    · rw [Number.Layout.render, Number.Layout.magnitude,
        if_pos hZero]
      rfl
    · have hSame : Binary64.zero x.negative = x := by
        rw [Binary64.isZero, beq_iff_eq] at hZero
        cases x
        simp_all [Binary64.zero]
      change Binary64.ofDecimal? x.negative 0 (-1) = _
      rw [Binary64.ofDecimal?]
      simp [hSame]
  · rw [Bool.not_eq_true] at hZero
    rcases exists_writes_magnitude layout hZero with
      ⟨numeral, hSign, hWrites⟩
    refine ⟨numeral, hWrites.isWellFormed, ?_,
      hWrites.isBinary, ?_⟩
    · rw [Number.Layout.render, Numeral.text, hSign,
        hWrites.text_eq]
    · rw [hSign]
      apply Binary64.ofDecimal?_of_holds hZero
      rw [hWrites.value_eq]
      exact Binary64.holds_shortest layout.tie hZero

/- An integer is written as a numeral that means it. -/
theorem exists_numeral_of_integer
    (value : Int)
    (hRange :
      -9223372036854775808 ≤ value ∧
        value < 18446744073709551616) :
    ∃ numeral : Numeral,
      numeral.IsWellFormed ∧
        Number.intText value = numeral.text ∧
        numeral.value? = some (.integer value hRange) := by
  refine ⟨⟨value < 0, Number.natText value.natAbs, none, none⟩,
    ⟨isRun_natText _, ?_, ?_, ?_⟩, ?_, ?_⟩
  · by_cases hZero : value.natAbs = 0
    · rw [hZero]
      exact Or.inl rfl
    · rcases Number.exists_natText_cons hZero with
        ⟨c, tail, hText, hHead⟩
      rw [hText]
      exact Or.inr (by simpa using hHead)
  · rintro _ ⟨⟩
  · rintro _ ⟨⟩
  · simp [Number.intText, Numeral.text, Numeral.magnitudeText,
      Numeral.fractionText, Numeral.powerText]
  · have hSigned :
        (if value < 0 then
            -((value.natAbs : Nat) : Int)
          else
            value.natAbs) =
          value := by
      split <;> omega
    have hNotMinusZero :
        ¬ ((decide (value < 0) && value.natAbs == 0) =
          true) := by
      rw [Bool.and_eq_true, decide_eq_true_eq, beq_iff_eq]
      omega
    have hDigits :
        Number.digitsValue
            (Number.natText value.natAbs ++ none.getD []) =
          value.natAbs := by
      rw [Option.getD_none, List.append_nil,
        Number.digitsValue_natText]
    simp only [Numeral.value?, Numeral.decimal, hDigits]
    rw [if_neg (by simp), if_neg hNotMinusZero]
    simp only [decide_eq_true_eq, hSigned, Number.ofInt?,
      dif_pos hRange, Option.some_or]

/- A number is written as a numeral. -/
theorem exists_numeral_of_number (number : Number) :
    ∃ numeral : Numeral,
      numeral.IsWellFormed ∧
        numberText number = numeral.text := by
  cases number with
  | integer value hRange =>
      rcases exists_numeral_of_integer value hRange with
        ⟨numeral, hWell, hText, -⟩
      exact ⟨numeral, hWell, hText⟩
  | binary x =>
      rcases exists_numeral_of_binary numberLayout x with
        ⟨numeral, hWell, hText, -⟩
      exact ⟨numeral, hWell, hText⟩

/- The value of a numeral is read from its text. -/
theorem readNumber_text
    {numeral : Numeral}
    (hWell : numeral.IsWellFormed)
    (hRest : EndsNumber rest) :
    readNumber (numeral.text ++ rest) =
      match numeral.value? with
      | some number => .ok (number, rest)
      | none => .error .malformed := by
  rw [readNumber]
  cases hValue : numeral.value? with
  | some number =>
      simp only [scanNumeral_text hWell hRest, bind,
        Except.bind, hValue]
  | none =>
      simp only [scanNumeral_text hWell hRest, bind,
        Except.bind, hValue]

/- An integer is read back from its text. -/
theorem readNumber_integer
    (value : Int)
    (hRange :
      -9223372036854775808 ≤ value ∧
        value < 18446744073709551616)
    (hRest : EndsNumber rest) :
    readNumber (numberText (.integer value hRange) ++ rest) =
      .ok (.integer value hRange, rest) := by
  rcases exists_numeral_of_integer value hRange with
    ⟨numeral, hWell, hText, hValue⟩
  rw [numberText, hText, readNumber_text hWell hRest, hValue]

/- What follows a number does not count for its value. -/
theorem readNumber_append
    {number found : Number}
    {left : List Char}
    (hRead :
      readNumber (numberText number) = .ok (found, left))
    (hRest : EndsNumber rest) :
    readNumber (numberText number ++ rest) =
      .ok (found, rest) := by
  rcases exists_numeral_of_number number with
    ⟨numeral, hWell, hText⟩
  rw [hText] at hRead ⊢
  have hAlone := readNumber_text hWell endsNumber_nil
  rw [List.append_nil, hRead] at hAlone
  rw [readNumber_text hWell hRest]
  cases hValue : numeral.value? with
  | none => simp [hValue] at hAlone
  | some value =>
      simp only [hValue, Except.ok.injEq, Prod.mk.injEq]
        at hAlone
      rw [hAlone.1]

end Json

end PipelineScript
