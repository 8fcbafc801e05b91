import PipelineScript.Number.Shortest

/-
  How numbers are written down.

  A layout says where the positional form ends and which way
  ties go. A number in positional form always has a point
  with a digit behind it.

  Key definitions include:
    * `Number.Layout`
    * `Number.Layout.render`
    * `Number.natText`
    * `Number.intText`
-/

namespace PipelineScript

namespace Number

------------------------------------------------------------
-- Integers
------------------------------------------------------------

/- A natural number in base ten. -/
def natText (n : Nat) : List Char :=
  Nat.toDigits 10 n

/- An integer in base ten, with a sign if it is negative. -/
def intText (n : Int) : List Char :=
  if n < 0 then '-' :: natText n.natAbs else natText n.natAbs

------------------------------------------------------------
-- Layouts
------------------------------------------------------------

/-
  The decisions of a number format. The decimal point stands
  behind `point` digits of the number, counted from its first
  digit; for which places of the point is it written out?
-/
structure Layout where
  tie : TieRule
  isPositional : (point : Int) → Bool

namespace Layout

/- Digits written out around the decimal point. -/
def positional
    (digits : List Char)
    (exponent : Int) : List Char :=
  let point : Int := digits.length + exponent
  if 0 ≤ exponent then
    digits ++ List.replicate exponent.natAbs '0' ++ ['.', '0']
  else if 0 < point then
    digits.take point.natAbs ++ '.' :: digits.drop point.natAbs
  else
    ['0', '.'] ++ List.replicate point.natAbs '0' ++ digits

/- One digit, the others behind a point, and the power. -/
def scientific
    (digits : List Char)
    (exponent : Int) : List Char :=
  let power : Int := digits.length + exponent - 1
  let tail := digits.drop 1
  digits.take 1
    ++ (if tail.isEmpty then [] else '.' :: tail)
    ++ ['e', if power < 0 then '-' else '+']
    ++ natText power.natAbs

/- The magnitude of a number as text. -/
def magnitude
    (layout : Layout)
    (x : Binary64) : List Char :=
  if x.isZero then
    ['0', '.', '0']
  else
    let decimal := x.shortest layout.tie
    let digits := natText decimal.digits
    if layout.isPositional (digits.length + decimal.exponent) then
      positional digits decimal.exponent
    else
      scientific digits decimal.exponent

/- A finite number as text. -/
def render
    (layout : Layout)
    (x : Binary64) : List Char :=
  if x.negative then
    '-' :: layout.magnitude x
  else
    layout.magnitude x

end Layout

end Number

end PipelineScript
