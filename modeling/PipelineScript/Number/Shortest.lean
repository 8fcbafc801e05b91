import PipelineScript.Number.Binary64

/-
  The shortest decimal that reads back as a given number.

  Among the decimals that are nearer to the number than to
  any other, one with the fewest digits is taken, and among
  these the one nearest to the number.

  Key definitions include:
    * `Decimal`
    * `TieRule`
    * `Binary64.rounding`
    * `Binary64.onGrid?`
    * `Binary64.shortest`
-/

namespace PipelineScript

------------------------------------------------------------
-- Decimals
------------------------------------------------------------

/- The decimal `digits * 10 ^ exponent`. -/
structure Decimal where
  digits : Nat
  exponent : Int
deriving DecidableEq, Repr

/- Which of two equally near decimals is taken. -/
inductive TieRule where
  | toEven
  | awayFromZero
deriving DecidableEq, Repr

namespace Binary64

------------------------------------------------------------
-- The Interval of a Number
------------------------------------------------------------

/-
  The reals that round to a magnitude, in quarters of its
  unit: the two ends, the magnitude itself, and whether the
  ends belong to it.
-/
structure Rounding where
  low : Nat
  middle : Nat
  high : Nat
  closed : Bool
deriving DecidableEq, Repr

/-
  The interval of a magnitude. It is half as wide below a
  power of two, where the numbers stand closer. Its ends
  round to the number with the even significand.
-/
def rounding (x : Binary64) : Rounding :=
  let scale := Nat.pow 2 x.exponent
  let middle := 4 * x.significand
  let step :=
    if x.significand == Nat.pow 2 52 && 0 < x.exponent then 1
    else 2
  { low := (middle - step) * scale
    middle := middle * scale
    high := (middle + 2) * scale
    closed := x.significand % 2 == 0 }

------------------------------------------------------------
-- Decimal Grids
------------------------------------------------------------

/-
  The multiple of `10 ^ exponent` that lies in the interval
  of the magnitude and is nearest to it, if there is one. An
  interval that holds any multiple holds one of the two next
  to the magnitude.
-/
def onGrid?
    (tie : TieRule)
    (interval : Rounding)
    (exponent : Int) : Option Decimal :=
  let power := Nat.pow 10 exponent.natAbs
  let scale := if exponent < 0 then power else 1
  let unit :=
    (if exponent < 0 then 1 else power) * Nat.pow 2 1076
  let inside (n : Nat) : Bool :=
    if interval.closed then
      interval.low * scale ≤ n * unit
        && n * unit ≤ interval.high * scale
    else
      interval.low * scale < n * unit
        && n * unit < interval.high * scale
  let below := interval.middle * scale / unit
  let twice := 2 * (interval.middle * scale % unit)
  let upper :=
    twice > unit
      || (twice == unit
        && (tie == .awayFromZero || below % 2 == 1))
  match inside below, inside (below + 1) with
  | true, true =>
      some ⟨if upper then below + 1 else below, exponent⟩
  | true, false => some ⟨below, exponent⟩
  | false, true => some ⟨below + 1, exponent⟩
  | false, false => none

/-
  The shortest decimal of a magnitude. Grids are tried from
  the coarsest that can hold a digit; the exact value stands
  behind them, since every magnitude is some multiple of
  `10 ^ (-1074)`.
-/
def shortest
    (tie : TieRule)
    (x : Binary64) : Decimal :=
  let top : Int := decimalLength x.units - 323
  let grids := (List.range 24).map fun i : Nat => top - i
  (grids.findSome? (onGrid? tie x.rounding)).getD
    ⟨x.units * Nat.pow 5 1074, -1074⟩

end Binary64

end PipelineScript
