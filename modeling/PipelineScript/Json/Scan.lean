import PipelineScript.Json.Fault
import PipelineScript.Number.Digits

/-
  The smallest parts of a JSON text: blanks, words, numbers
  and texts, read from a list of characters.

  A number or text can be read for its value, or passed over.
  What is passed over need not have a value: a number may be
  too large, and half of a surrogate pair may stand alone.

  Key definitions include:
    * `Json.skipBlank`
    * `Json.word`
    * `Json.scanNumeral`
    * `Json.Numeral.binary?`
    * `Json.readNumber`
    * `Json.readText`
    * `Json.skipText`
-/

namespace PipelineScript

namespace Json

------------------------------------------------------------
-- Blanks and Words
------------------------------------------------------------

/- A character that may stand between the parts of a text. -/
def isSpace (c : Char) : Bool :=
  c == ' ' || c == '\n' || c == '\t' || c == '\r'

/- What follows the blanks. -/
def skipBlank (cs : List Char) : List Char :=
  cs.dropWhile isSpace

/- What follows the given letters. -/
def word :
    (expected : List Char) →
      List Char → Except Fault (List Char)
  | [], cs => .ok cs
  | _ :: _, [] => .error .endOfInput
  | e :: expected, c :: cs =>
      if c == e then word expected cs else .error .malformed

------------------------------------------------------------
-- Numbers
------------------------------------------------------------

/- The parts of a number as they are written. -/
structure Numeral where
  negative : Bool
  whole : List Char
  fraction : Option (List Char)
  power : Option (Bool × List Char)
deriving Repr, DecidableEq

/-
  At least one digit, and all digits that follow it. The text
  may end instead, which is the given fault.
-/
def digitRun
    (atEnd : Fault)
    (cs : List Char) :
    Except Fault (List Char × List Char) :=
  match cs with
  | [] => .error atEnd
  | c :: _ =>
      if c.isDigit then
        .ok (cs.takeWhile Char.isDigit, cs.dropWhile Char.isDigit)
      else
        .error .malformed

/- The digits in front of a point: no zero before others. -/
def wholeRun
    (atEnd : Fault)
    (cs : List Char) :
    Except Fault (List Char × List Char) :=
  match cs with
  | '0' :: c :: rest =>
      if c.isDigit then
        .error .malformed
      else
        .ok (['0'], c :: rest)
  | _ => digitRun atEnd cs

/- The digits behind a point, if there is a point. -/
def fractionRun
    (atEnd : Fault)
    (cs : List Char) :
    Except Fault (Option (List Char) × List Char) :=
  match cs with
  | '.' :: rest => do
      let (digits, rest) ← digitRun atEnd rest
      .ok (some digits, rest)
  | _ => .ok (none, cs)

/- The power of ten behind a number, if there is one. -/
def powerRun
    (atEnd : Fault)
    (cs : List Char) :
    Except Fault (Option (Bool × List Char) × List Char) :=
  match cs with
  | c :: rest =>
      if c == 'e' || c == 'E' then
        match rest with
        | '+' :: rest => do
            let (digits, rest) ← digitRun atEnd rest
            .ok (some (false, digits), rest)
        | '-' :: rest => do
            let (digits, rest) ← digitRun atEnd rest
            .ok (some (true, digits), rest)
        | _ => do
            let (digits, rest) ← digitRun atEnd rest
            .ok (some (false, digits), rest)
      else
        .ok (none, cs)
  | [] => .ok (none, cs)

/- The parts of a number behind its sign. -/
def scanMagnitude
    (atEnd : Fault)
    (negative : Bool)
    (cs : List Char) : Except Fault (Numeral × List Char) := do
  let (whole, rest) ← wholeRun atEnd cs
  let (fraction, rest) ← fractionRun atEnd rest
  let (power, rest) ← powerRun atEnd rest
  .ok (⟨negative, whole, fraction, power⟩, rest)

/- The parts of a number. -/
def scanNumeral
    (atEnd : Fault)
    (cs : List Char) : Except Fault (Numeral × List Char) :=
  match cs with
  | '-' :: rest => scanMagnitude atEnd true rest
  | _ => scanMagnitude atEnd false cs

namespace Numeral

/- The decimal that a numeral stands for, without its sign. -/
def decimal (numeral : Numeral) : Decimal :=
  let fraction := numeral.fraction.getD []
  let shift : Int :=
    match numeral.power with
    | some (true, digits) => -(Number.digitsValue digits : Int)
    | some (false, digits) => Number.digitsValue digits
    | none => 0
  ⟨Number.digitsValue (numeral.whole ++ fraction),
    shift - fraction.length⟩

/-
  The number that digits make behind those that were read, as
  far as it has at most 64 bits, and the digits that are left.
-/
def collect (n : Nat) : List Char → Nat × List Char
  | [] => (n, [])
  | c :: rest =>
      let next := n * 10 + (c.toNat - '0'.toNat)
      if next < Nat.pow 2 64 then
        collect next rest
      else
        (n, c :: rest)

/- The binary number nearest to a power of ten. -/
def tenTo (power : Nat) : Binary64 :=
  (Binary64.ofDecimal? false 1 power).getD (.zero false)

/-
  A number times a power of ten. The number, the power and what
  they make are rounded one after the other, and a power below
  the least one is taken in two steps.
-/
def scaled?
    (negative : Bool)
    (n : Nat)
    (power : Int) : Option Binary64 :=
  let number := Binary64.ofRatio? negative n 1
  if n == 0 then
    some (.zero negative)
  else if 308 < power then
    none
  else if 0 ≤ power then
    number.bind (·.times? (tenTo power.natAbs))
  else if -308 ≤ power then
    number.bind (·.over? (tenTo power.natAbs))
  else if -616 ≤ power then
    (number.bind (·.over? (tenTo 308))).bind
      (·.over? (tenTo (power.natAbs - 308)))
  else
    some (.zero negative)

/-
  The binary number that a numeral is taken for. Digits that
  make more than 64 bits do not count: those in front of the
  point only by their number, those behind it not at all.
-/
def binary? (numeral : Numeral) : Option Binary64 :=
  let fraction := numeral.fraction.getD []
  let (whole, dropped) := collect 0 numeral.whole
  let (digits, ignored) := collect whole fraction
  let shift : Int :=
    dropped.length - (fraction.length - ignored.length : Int)
  match numeral.power with
  | none => scaled? numeral.negative digits shift
  | some (isNegative, power) =>
      let power := Number.digitsValue power
      if power < Nat.pow 2 31 then
        scaled? numeral.negative digits
          (if isNegative then shift - power else shift + power)
      else if digits == 0 || isNegative then
        some (.zero numeral.negative)
      else
        none

/-
  The value of a numeral. A numeral of digits alone is an
  integer if it fits and is not minus zero; otherwise it is
  taken for a binary number, and there may be none.
-/
def value? (numeral : Numeral) : Option Number :=
  let digits := numeral.decimal.digits
  let binary := numeral.binary?.map Number.binary
  if numeral.fraction.isSome || numeral.power.isSome then
    binary
  else if numeral.negative && digits == 0 then
    binary
  else
    let n : Int := digits
    (Number.ofInt? (if numeral.negative then -n else n)).or binary

end Numeral

/- A number read for its value. -/
def readNumber
    (cs : List Char) : Except Fault (Number × List Char) := do
  let (numeral, rest) ← scanNumeral .endOfInput cs
  match numeral.value? with
  | some number => .ok (number, rest)
  | none => .error .malformed

/- What follows a number that is passed over. -/
def skipNumber (cs : List Char) : Except Fault (List Char) := do
  let (_, rest) ← scanNumeral .malformed cs
  .ok rest

------------------------------------------------------------
-- Texts
------------------------------------------------------------

/-
  Four hexadecimal digits. Where fewer than four bytes are
  left, the text ends too early whatever they are.
-/
def hexFour
    (cs : List Char) : Except Fault (Nat × List Char) :=
  match cs with
  | a :: b :: c :: d :: rest =>
      match Number.hexValue? a, Number.hexValue? b,
          Number.hexValue? c, Number.hexValue? d with
      | some a, some b, some c, some d =>
          .ok (((a * 16 + b) * 16 + c) * 16 + d, rest)
      | _, _, _, _ => .error .malformed
  | _ =>
      if (String.ofList cs).utf8ByteSize < 4 then
        .error .endOfInput
      else
        .error .malformed

/- The character behind a backslash, unless it is a `u`. -/
def plainEscape? (c : Char) : Option Char :=
  if c == '"' then
    some '"'
  else if c == '\\' then
    some '\\'
  else if c == '/' then
    some '/'
  else if c == 'b' then
    some '\x08'
  else if c == 'f' then
    some '\x0C'
  else if c == 'n' then
    some '\n'
  else if c == 'r' then
    some '\r'
  else if c == 't' then
    some '\t'
  else
    none

/- The second half of a surrogate pair, given the first. -/
def lowSurrogate
    (high : Nat)
    (cs : List Char) : Except Fault (Char × List Char) :=
  match cs with
  | [] => .error .endOfInput
  | '\\' :: [] => .error .endOfInput
  | '\\' :: 'u' :: rest => do
      let (low, rest) ← hexFour rest
      if 0xDC00 ≤ low && low ≤ 0xDFFF then
        .ok (Char.ofNat
          (0x10000 + (high - 0xD800) * 0x400 + (low - 0xDC00)),
          rest)
      else
        .error .malformed
  | _ => .error .malformed

/- The character written as a code behind `\u`. -/
def codeEscape
    (cs : List Char) : Except Fault (Char × List Char) := do
  let (code, rest) ← hexFour cs
  if 0xDC00 ≤ code && code ≤ 0xDFFF then
    .error .malformed
  else if 0xD800 ≤ code && code ≤ 0xDBFF then
    lowSurrogate code rest
  else
    .ok (Char.ofNat code, rest)

/- The character written behind a backslash. -/
def readEscape
    (cs : List Char) : Except Fault (Char × List Char) :=
  match cs with
  | [] => .error .endOfInput
  | c :: rest =>
      if c == 'u' then
        codeEscape rest
      else
        match plainEscape? c with
        | some d => .ok (d, rest)
        | none => .error .malformed

/- What follows an escape that is passed over. -/
def skipEscape (cs : List Char) : Except Fault (List Char) :=
  match cs with
  | [] => .error .endOfInput
  | c :: rest =>
      if c == 'u' then
        (hexFour rest).map Prod.snd
      else if (plainEscape? c).isSome then
        .ok rest
      else
        .error .malformed

/- Reading four digits makes a text shorter. -/
theorem length_lt_of_hexFour
    {cs rest : List Char}
    {n : Nat}
    (h : hexFour cs = .ok (n, rest)) :
    rest.length < cs.length := by
  unfold hexFour at h
  split at h
  · split at h
    · simp only [Except.ok.injEq, Prod.mk.injEq] at h
      rw [← h.2]
      simp only [List.length_cons]
      omega
    · simp at h
  · split at h <;> simp at h

/- Reading the second half makes a text shorter. -/
theorem length_lt_of_lowSurrogate
    {high : Nat}
    {cs rest : List Char}
    {c : Char}
    (h : lowSurrogate high cs = .ok (c, rest)) :
    rest.length < cs.length := by
  unfold lowSurrogate at h
  split at h
  · simp at h
  · simp at h
  · next tail =>
      cases hHex : hexFour tail with
      | error e => simp [hHex, bind, Except.bind] at h
      | ok p =>
          obtain ⟨low, after⟩ := p
          simp only [hHex, bind, Except.bind] at h
          split at h
          · simp only [Except.ok.injEq, Prod.mk.injEq] at h
            have := length_lt_of_hexFour hHex
            rw [← h.2]
            simp only [List.length_cons]
            omega
          · simp at h
  · simp at h

/- Reading a code makes a text shorter. -/
theorem length_lt_of_codeEscape
    {cs rest : List Char}
    {c : Char}
    (h : codeEscape cs = .ok (c, rest)) :
    rest.length < cs.length := by
  unfold codeEscape at h
  cases hHex : hexFour cs with
  | error e => simp [hHex, bind, Except.bind] at h
  | ok p =>
      obtain ⟨code, after⟩ := p
      have hLt := length_lt_of_hexFour hHex
      simp only [hHex, bind, Except.bind] at h
      split at h
      · simp at h
      · split at h
        · exact Nat.lt_trans (length_lt_of_lowSurrogate h) hLt
        · simp only [Except.ok.injEq, Prod.mk.injEq] at h
          rw [← h.2]
          exact hLt

/- Reading an escape makes a text shorter. -/
theorem length_lt_of_readEscape
    {cs rest : List Char}
    {c : Char}
    (h : readEscape cs = .ok (c, rest)) :
    rest.length < cs.length := by
  unfold readEscape at h
  split at h
  · simp at h
  · split at h
    · exact Nat.lt_succ_of_lt (length_lt_of_codeEscape h)
    · split at h
      · simp only [Except.ok.injEq, Prod.mk.injEq] at h
        rw [← h.2]
        exact Nat.lt_succ_self _
      · simp at h

/- Passing over an escape makes a text shorter. -/
theorem length_lt_of_skipEscape
    {cs rest : List Char}
    (h : skipEscape cs = .ok rest) :
    rest.length < cs.length := by
  unfold skipEscape at h
  split at h
  · simp at h
  · next c tail =>
      split at h
      · cases hHex : hexFour tail with
        | error e => simp [hHex, Except.map] at h
        | ok p =>
            simp only [hHex, Except.map, Except.ok.injEq] at h
            rw [← h]
            have hLt : p.2.length < tail.length :=
              length_lt_of_hexFour hHex
            exact Nat.lt_succ_of_lt hLt
      · split at h
        · simp only [Except.ok.injEq] at h
          rw [← h]
          exact Nat.lt_succ_self _
        · simp at h

/- The characters of a text behind its opening quote. -/
def readText
    (cs : List Char) :
    Except Fault (List Char × List Char) :=
  match cs with
  | [] => .error .endOfInput
  | c :: rest =>
      if c == '"' then
        .ok ([], rest)
      else if c == '\\' then
        match h : readEscape rest with
        | .error fault => .error fault
        | .ok (d, tail) =>
            have : tail.length < rest.length :=
              length_lt_of_readEscape h
            match readText tail with
            | .error fault => .error fault
            | .ok (text, after) => .ok (d :: text, after)
      else if c.toNat < 0x20 then
        .error .malformed
      else
        match readText rest with
        | .error fault => .error fault
        | .ok (text, after) => .ok (c :: text, after)
termination_by cs.length

/- What follows a text that is passed over. -/
def skipText
    (cs : List Char) : Except Fault (List Char) :=
  match cs with
  | [] => .error .endOfInput
  | c :: rest =>
      if c == '"' then
        .ok rest
      else if c == '\\' then
        match h : skipEscape rest with
        | .error fault => .error fault
        | .ok tail =>
            have : tail.length < rest.length :=
              length_lt_of_skipEscape h
            skipText tail
      else if c.toNat < 0x20 then
        .error .malformed
      else
        skipText rest
termination_by cs.length

end Json

end PipelineScript
