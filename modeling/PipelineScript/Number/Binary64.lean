/-
  Finite binary floating-point numbers of 64 bits.

  A number is its sign and its place among the magnitudes in
  ascending order. The magnitude at a place is a whole number
  of units of `2 ^ (-1074)`, the smallest positive number, so
  that all arithmetic on magnitudes is on natural numbers.

  Key definitions include:
    * `Binary64`
    * `Binary64.units`
    * `Binary64.nearestOrdinal`
    * `Binary64.ofRatio?`
    * `Binary64.toSigned?`
    * `Binary64.ofDecimal?`
    * `Binary64.times?`
    * `Binary64.over?`
    * `Binary64.whole?`
-/

namespace PipelineScript

------------------------------------------------------------
-- Finite Numbers
------------------------------------------------------------

/-
  A finite number: its sign, and the place of its magnitude
  among all magnitudes, zero being at place zero. The two
  zeros differ in sign.
-/
structure Binary64 where
  negative : Bool
  ordinal : Nat
  ordinal_lt : ordinal < 2047 * Nat.pow 2 52
deriving DecidableEq, Repr

namespace Binary64

/- Zero with the given sign. -/
def zero (negative : Bool) : Binary64 where
  negative := negative
  ordinal := 0
  ordinal_lt := by decide

/- The power of two that the significand is scaled by. -/
def exponent (x : Binary64) : Nat :=
  x.ordinal / Nat.pow 2 52 - 1

/- The significand, at most 53 bits long. -/
def significand (x : Binary64) : Nat :=
  x.ordinal - x.exponent * Nat.pow 2 52

/- The magnitude in units of `2 ^ (-1074)`. -/
def units (x : Binary64) : Nat :=
  x.significand * Nat.pow 2 x.exponent

/- The number is one of the two zeros. -/
def isZero (x : Binary64) : Bool :=
  x.ordinal == 0

/- The number is greater than zero. -/
def isPositive (x : Binary64) : Bool :=
  !x.negative && x.ordinal != 0

/-
  The number as an integer, if it has no fractional part.
-/
def whole? (x : Binary64) : Option Int :=
  if x.units % Nat.pow 2 1074 == 0 then
    let magnitude := Int.ofNat (x.units / Nat.pow 2 1074)
    some (if x.negative then -magnitude else magnitude)
  else
    none

------------------------------------------------------------
-- Rounding
------------------------------------------------------------

/- The nearest whole quotient; a half goes to the even one. -/
def roundHalfEven
    (numerator denominator : Nat) : Nat :=
  let quotient := numerator / denominator
  let twice := 2 * (numerator % denominator)
  if twice < denominator then
    quotient
  else if denominator < twice then
    quotient + 1
  else
    quotient + quotient % 2

/-
  The place of the magnitude nearest to a quotient, as if the
  places went on without end.
-/
def nearestOrdinal
    (numerator denominator : Nat) : Nat :=
  let scaled := numerator * Nat.pow 2 1074
  let shift := (scaled / denominator).log2 - 52
  shift * Nat.pow 2 52
    + roundHalfEven scaled (denominator * Nat.pow 2 shift)

/- The number nearest to a quotient, unless it is too large. -/
def ofRatio?
    (negative : Bool)
    (numerator denominator : Nat) : Option Binary64 :=
  let ordinal := nearestOrdinal numerator denominator
  if h : ordinal < 2047 * Nat.pow 2 52 then
    some ⟨negative, ordinal, h⟩
  else
    none

/- The number nearest to an integer of at most 64 bits. -/
def ofInt (n : Int) : Binary64 :=
  (ofRatio? (n < 0) n.natAbs 1).getD (zero false)

/-
  The number as a signed integer of 64 bits. It must have no
  fractional part, and a magnitude below that of the greatest
  such integer in binary.
-/
def toSigned? (x : Binary64) : Option Int :=
  x.whole?.filter fun _ =>
    x.ordinal < (ofInt 9223372036854775807).ordinal

/- How many digits a number has in base ten. -/
def decimalLength (n : Nat) : Nat :=
  (Nat.toDigits 10 n).length

/-
  The number nearest to `digits * 10 ^ exponent`, unless it
  is too large. Far outside the range of the numbers the
  answer is known without computing the power.
-/
def ofDecimal?
    (negative : Bool)
    (digits : Nat)
    (exponent : Int) : Option Binary64 :=
  let size : Int := decimalLength digits + exponent
  if digits == 0 then
    some (zero negative)
  else if size < -400 then
    some (zero negative)
  else if 400 < size then
    none
  else if exponent < 0 then
    ofRatio? negative digits (Nat.pow 10 exponent.natAbs)
  else
    ofRatio? negative (digits * Nat.pow 10 exponent.natAbs) 1

/- The number nearest to a product, unless it is too large. -/
def times? (x y : Binary64) : Option Binary64 :=
  ofRatio? (x.negative != y.negative) (x.units * y.units)
    (Nat.pow 2 2148)

/- The number nearest to a quotient, unless it is too large. -/
def over? (x y : Binary64) : Option Binary64 :=
  ofRatio? (x.negative != y.negative) x.units y.units

end Binary64

------------------------------------------------------------
-- All Bit Patterns
------------------------------------------------------------

/- What a pattern of 64 bits stands for. -/
inductive Binary64Pattern where
  | finite (value : Binary64)
  | infinite (negative : Bool)
  | notANumber
deriving DecidableEq, Repr

namespace Binary64Pattern

/-
  Read a pattern: the top bit is the sign, and the others
  count through the magnitudes, the infinity after the last
  of them, and then the patterns that are no number.
-/
def ofBits (bits : UInt64) : Binary64Pattern :=
  let negative := decide (Nat.pow 2 63 ≤ bits.toNat)
  let ordinal := bits.toNat % Nat.pow 2 63
  if h : ordinal < 2047 * Nat.pow 2 52 then
    .finite ⟨negative, ordinal, h⟩
  else if ordinal == 2047 * Nat.pow 2 52 then
    .infinite negative
  else
    .notANumber

end Binary64Pattern

end PipelineScript
