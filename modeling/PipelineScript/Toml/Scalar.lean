import PipelineScript.Toml.Quoted
import PipelineScript.Toml.Value

/-
  Numbers, dates, times and truth values.

  Digits can have single underscores between them. An integer
  has at most 64 bits, and a number with a fraction or a power
  is binary.

  Key definitions include:
    * `Toml.underscored`
    * `Toml.numeral`
    * `Toml.moment`
    * `Toml.scalar`
-/

namespace PipelineScript

namespace Toml

open Reader

------------------------------------------------------------
-- Small Combinations
------------------------------------------------------------

namespace Reader

variable {α β : Type}

/- A value, and what may stand behind it. -/
def optionally
    (reader : Reader α)
    (second : Reader β) : Reader (α × Option β) :=
  ((reader.andThen second).map fun (a, b) => (a, some b)).orElse
    (reader.map fun a => (a, none))

/- A value behind a sign, or without one. -/
def signed (reader : Reader α) : Reader (Bool × α) :=
  ((reader.behind (exact '-')).map (true, ·)).orElse
    (((reader.behind (exact '+')).map (false, ·)).orElse
      (reader.map (false, ·)))

/- The given letters, of which there is at least one. -/
def letters (first : Char) : List Char → Reader Unit
  | [] => exact first
  | next :: rest => (letters next rest).behind (exact first)

end Reader

------------------------------------------------------------
-- Digits
------------------------------------------------------------

/- Underscores stand alone, and between digits. -/
def isSpread : List Char → Bool
  | [] => true
  | ['_'] => false
  | '_' :: '_' :: _ => false
  | _ :: rest => isSpread rest

/- Digits without the underscores between them. -/
def underscored (isDigit : Char → Bool) : Reader (List Char) :=
  (run1 fun c => isDigit c || c == '_').filterMap fun cs =>
    if cs.head? != some '_' && isSpread cs then
      some (cs.filter (· != '_'))
    else
      none

/- Decimal digits that do not begin with a needless zero. -/
def wholeDigits : Reader (List Char) :=
  (run1 fun c => c.isDigit || c == '_').filterMap fun cs =>
    if cs.head? != some '_' && isSpread cs
        && (cs.head? != some '0' || cs.length == 1) then
      some (cs.filter (· != '_'))
    else
      none

------------------------------------------------------------
-- Numbers
------------------------------------------------------------

/- An integer that fits in 64 bits with a sign. -/
def integer? (n : Int) : Option Value :=
  if -9223372036854775808 ≤ n ∧ n < 9223372036854775808 then
    some (.integer n)
  else
    none

/-
  The nearest binary number to a decimal. Too large a number
  is refused, and too small a negative one is infinite.
-/
def binary?
    (negative : Bool)
    (digits : List Char)
    (exponent : Int) : Option Value :=
  match
    Binary64.ofDecimal? negative (Number.digitsValue digits)
      exponent with
  | some x => some (.binary (.finite x))
  | none =>
      if negative then some (.binary (.infinite true)) else none

/- An integer in a base of its own, behind a letter for it. -/
def radix
    (letter : Char)
    (base : Nat)
    (isDigit : Char → Bool) : Reader Value :=
  (((underscored isDigit).behind (exact letter)).behind
    (exact '0')).filterMap fun digits =>
      integer? (Number.valueInBase base digits)

/- The digits behind a point. -/
def fraction : Reader (List Char) :=
  (underscored Char.isDigit).behind (exact '.')

/- The power of ten behind a number. -/
def power : Reader Int :=
  ((signed (underscored Char.isDigit)).behind
    (member fun c => c == 'e' || c == 'E')).map
      fun (negative, digits) =>
        let n : Int := Number.digitsValue digits
        if negative then -n else n

/- The value of a decimal number with all of its parts. -/
def decimal?
    (negative : Bool)
    (whole : List Char)
    (fraction : Option (List Char))
    (power : Option Int) : Option Value :=
  let behind := fraction.getD []
  if fraction.isSome || power.isSome then
    binary? negative (whole ++ behind)
      (power.getD 0 - behind.length)
  else
    let n : Int := Number.digitsValue whole
    integer? (if negative then -n else n)

/- A decimal number. -/
def decimal : Reader Value :=
  (((signed wholeDigits).optionally fraction).optionally
    power).filterMap
      fun (((negative, whole), fraction), power) =>
        decimal? negative whole fraction power

/- A number that is infinite, or none at all. -/
def special : Reader Value :=
  ((signed (letters 'i' ['n', 'f'])).map fun (negative, _) =>
      .binary (.infinite negative)).orElse
    ((signed (letters 'n' ['a', 'n'])).map fun _ =>
      .binary .notANumber)

/- A number of any kind. -/
def numeral : Reader Value :=
  (radix 'x' 16 fun c => (Number.hexValue? c).isSome).orElse
    ((radix 'o' 8 fun c => '0' ≤ c && c ≤ '7').orElse
      ((radix 'b' 2 fun c => c == '0' || c == '1').orElse
        (decimal.orElse special)))

------------------------------------------------------------
-- Dates and Times
------------------------------------------------------------

/- Two digits. -/
def twoDigits : Reader Nat :=
  ((member Char.isDigit).andThen (member Char.isDigit)).map
    fun (c, d) => Number.digitsValue [c, d]

/- How many days a month has. -/
def monthLength (year month : Nat) : Nat :=
  if month == 2 then
    if year % 4 == 0 && (year % 100 != 0 || year % 400 == 0) then
      29
    else
      28
  else if month == 4 || month == 6 || month == 9
      || month == 11 then
    30
  else
    31

/- The date exists. -/
def Date.isValid (date : Date) : Bool :=
  1 ≤ date.month && date.month ≤ 12 && 1 ≤ date.day
    && date.day ≤ monthLength date.year date.month

/- The time exists. A minute may have a second to spare. -/
def Clock.isValid (clock : Clock) : Bool :=
  clock.hour ≤ 23 && clock.minute ≤ 59 && clock.second ≤ 60

/- The offset is less than a day. -/
def Offset.isValid (offset : Offset) : Bool :=
  offset.hour ≤ 23 && offset.minute ≤ 59

/- A date. -/
def date : Reader Date :=
  ((((twoDigits.andThen twoDigits).before (exact '-')).andThen
    (twoDigits.before (exact '-'))).andThen twoDigits).filterMap
      fun (((century, year), month), day) =>
        let date : Date := ⟨century * 100 + year, month, day⟩
        if date.isValid then some date else none

/- A time. -/
def clock : Reader Clock :=
  ((((twoDigits.before (exact ':')).andThen
    (twoDigits.before (exact ':'))).andThen
      twoDigits).optionally
        ((run1 Char.isDigit).behind (exact '.'))).filterMap
          fun (((hour, minute), second), fraction) =>
            let clock : Clock :=
              ⟨hour, minute, second, fraction.getD []⟩
            if clock.isValid then some clock else none

/- An offset. -/
def offset : Reader Offset :=
  ((member fun c => c == 'Z' || c == 'z').map fun _ =>
      ⟨false, 0, 0⟩).orElse
    (((member fun c => c == '+' || c == '-').andThen
      ((twoDigits.before (exact ':')).andThen
        twoDigits)).filterMap
          fun (sign, hour, minute) =>
            let offset : Offset := ⟨sign == '-', hour, minute⟩
            if offset.isValid then some offset else none)

/- A time behind its date. -/
def clockBehindDate : Reader (Clock × Option Offset) :=
  (clock.optionally offset).behind
    (member fun c => c == 'T' || c == 't' || c == ' ')

/- A date, a time, or both. -/
def moment : Reader Moment :=
  ((date.optionally clockBehindDate).map
    fun (date, behind) =>
      { date := some date
        clock := behind.map Prod.fst
        offset := behind.bind Prod.snd }).orElse
  (clock.map fun clock =>
    { date := none
      clock := some clock
      offset := none })

------------------------------------------------------------
-- All Scalars
------------------------------------------------------------

/- A truth value. -/
def boolean : Reader Bool :=
  ((letters 't' ['r', 'u', 'e']).map fun _ => true).orElse
    ((letters 'f' ['a', 'l', 's', 'e']).map fun _ => false)

/- A value that has no other values inside it. -/
def scalar : Reader Value :=
  (quotedText.map .text).orElse
    ((boolean.map .boolean).orElse
      ((moment.map .moment).orElse numeral))

end Toml

end PipelineScript
