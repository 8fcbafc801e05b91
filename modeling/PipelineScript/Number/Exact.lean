import PipelineScript.Number.Binary64

/-
  Numbers as a document writes them: an integer of at most 64
  bits keeps its kind, and any other number is binary.

  Key definitions include:
    * `Number`
    * `Number.ofInt?`
    * `Number.toBinary`
    * `Number.isPositive`
    * `Number.isZero`
    * `Number.signed?`
    * `Number.toInteger?`
-/

namespace PipelineScript

/-
  A number with its written kind. Integers reach from the
  least signed to the greatest unsigned number of 64 bits.
-/
inductive Number where
  | integer
      (value : Int)
      (inRange : -9223372036854775808 ≤ value
        ∧ value < 18446744073709551616)
  | binary (value : Binary64)
deriving DecidableEq, Repr

namespace Number

/- An integer, if it has at most 64 bits. -/
def ofInt? (n : Int) : Option Number :=
  if h : -9223372036854775808 ≤ n
      ∧ n < 18446744073709551616 then
    some (.integer n h)
  else
    none

/- The nearest binary number. -/
def toBinary : Number → Binary64
  | .integer value _ => .ofInt value
  | .binary value => value

/- The number is greater than zero. -/
def isPositive : Number → Bool
  | .integer value _ => 0 < value
  | .binary value => value.isPositive

/- The number is zero, of either sign. -/
def isZero : Number → Bool
  | .integer value _ => value == 0
  | .binary value => value.isZero

/-
  The number as a signed integer of 64 bits, if it is written
  as one.
-/
def signed? : Number → Option Int
  | .integer value _ =>
      if value ≤ 9223372036854775807 then some value else none
  | .binary _ => none

/-
  The number as a signed integer of 64 bits. One that is not
  written as such an integer is taken in binary.
-/
def toInteger? (n : Number) : Option Int :=
  match n.signed? with
  | some value => some value
  | none => n.toBinary.toSigned?

end Number

end PipelineScript
