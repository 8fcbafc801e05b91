import PipelineScript.Json.Scan
import PipelineScript.Table
import PipelineScript.Text.Name

/-
  What a literal of a script stands for.

  Only a part of the language is read, and everything else is
  refused: texts are in single quotes, keys are texts, and the
  only words are those for values. What is read means the same
  to every reader of scripts.

  Key definitions include:
    * `Datum`
    * `Datum.readQuoted`
    * `Datum.readItems`
    * `Datum.readAround`
    * `Datum.read?`
-/

namespace PipelineScript

/-
  What a literal stands for. An integer and a float are never
  the same, even where they are equal as numbers. A mapping
  has its keys in the order of their first place.
-/
inductive Datum where
  | nothing
  | truth (value : Bool)
  | integer (value : Int)
  | float (value : Binary64)
  | text (value : String)
  | list (items : List Datum)
  | tuple (items : List Datum)
  | mapping (entries : List (String × Datum))
deriving Repr

namespace Datum

/-
  A way to read something from the front of a text, with what
  follows it.
-/
abbrev Reader (α : Type) :=
  List Char → Option (α × List Char)

variable {α β : Type}

/- Apply a function to what was read. -/
def mapRead
    (f : α → β)
    (read : Option (α × List Char)) :
    Option (β × List Char) :=
  read.map fun (value, rest) => (f value, rest)

/- What follows the spaces. -/
def skipSpaces (cs : List Char) : List Char :=
  cs.dropWhile (· == ' ')

------------------------------------------------------------
-- Words and Numbers
------------------------------------------------------------

/- The words that stand for values. -/
def words : List (List Char × Datum) :=
  [(['N', 'o', 'n', 'e'], .nothing),
    (['T', 'r', 'u', 'e'], .truth true),
    (['F', 'a', 'l', 's', 'e'], .truth false)]

/- A word, up to its last letter. -/
def readWord : Reader Datum := fun cs =>
  (words.lookup (cs.takeWhile Text.isNamePart)).map
    fun datum => (datum, cs.dropWhile Text.isNamePart)

/-
  The number that a numeral stands for. Digits alone are an
  integer of any size, and minus zero is then zero. All other
  numerals are floats, of which some are too large.
-/
def ofNumeral? (numeral : Json.Numeral) : Option Datum :=
  let decimal := numeral.decimal
  if numeral.fraction.isSome || numeral.power.isSome then
    (Binary64.ofDecimal? numeral.negative decimal.digits
      decimal.exponent).map .float
  else
    let n : Int := decimal.digits
    some (.integer (if numeral.negative then -n else n))

/- A number, up to its last digit. -/
def readNumber : Reader Datum := fun cs =>
  match Json.scanNumeral .malformed cs with
  | .ok (numeral, rest) =>
      (ofNumeral? numeral).map fun datum => (datum, rest)
  | .error _ => none

------------------------------------------------------------
-- Texts
------------------------------------------------------------

/- What one letter behind a backslash stands for. -/
def escapes : List (Char × Char) :=
  [('\\', '\\'), ('\'', '\''), ('"', '"'), ('a', '\x07'),
    ('b', '\x08'), ('f', '\x0C'), ('n', '\n'), ('r', '\r'),
    ('t', '\t'), ('v', '\x0B')]

/- The character that two hexadecimal digits stand for. -/
def ofHexPair? (high low : Char) : Option Char := do
  let first ← Number.hexValue? high
  let second ← Number.hexValue? low
  some (Char.ofNat (16 * first + second))

/- A character that must not stand in a text as it is. -/
def isForbidden (c : Char) : Bool :=
  c == '\n' || c == '\r' || c == '\x00'

/- A character in front of what else a text says. -/
def inFront
    (c : Char)
    (read : Option (List Char × List Char)) :
    Option (List Char × List Char) :=
  mapRead (c :: ·) read

/- What stands before the mark that closes a text. -/
def readQuoted : Reader (List Char)
  | '\'' :: rest => some ([], rest)
  | '\\' :: 'x' :: high :: low :: rest =>
      match ofHexPair? high low with
      | some c => inFront c (readQuoted rest)
      | none => none
  | '\\' :: kind :: rest =>
      match escapes.lookup kind with
      | some c => inFront c (readQuoted rest)
      | none => none
  | ['\\'] => none
  | c :: rest =>
      if isForbidden c then
        none
      else
        inFront c (readQuoted rest)
  | [] => none

------------------------------------------------------------
-- What Stands Between Brackets
------------------------------------------------------------

/-
  Items with commas between them up to the character that
  closes them, and whether there is a last item that has no
  comma behind it. Fewer items are read than the number says.
-/
def readItems
    (item : Reader α)
    (close : Char) :
    (most : Nat) → Reader (List α × Bool)
  | 0, _ => none
  | most + 1, cs =>
      match skipSpaces cs with
      | [] => none
      | c :: rest =>
          if c == close then
            some (([], false), rest)
          else
            match item (c :: rest) with
            | none => none
            | some (first, after) =>
                match skipSpaces after with
                | [] => none
                | d :: rest =>
                    if d == close then
                      some (([first], true), rest)
                    else if d == ',' then
                      mapRead (Prod.map (first :: ·) id)
                        (readItems item close most rest)
                    else
                      none

/- All items. No text has more of them than characters. -/
def readAll
    (item : Reader α)
    (close : Char) : Reader (List α × Bool) := fun cs =>
  readItems item close (cs.length + 1) cs

/- A key in quotes, a colon, and what stands under the key. -/
def readMember
    (item : Reader Datum) : Reader (String × Datum) := fun cs =>
  match cs with
  | '\'' :: rest =>
      match readQuoted rest with
      | none => none
      | some (key, after) =>
          match skipSpaces after with
          | ':' :: after =>
              mapRead (String.ofList key, ·)
                (item (skipSpaces after))
          | _ => none
  | _ => none

/-
  What stands in parentheses: one item without a comma behind
  it is that item, and everything else is a tuple.
-/
def ofGroup : List Datum × Bool → Datum
  | ([item], true) => item
  | (items, _) => .tuple items

/- A key that comes again takes its last value. -/
def ofMembers
    (members : List (String × Datum) × Bool) : Datum :=
  .mapping (Table.ofList members.1).entries

------------------------------------------------------------
-- Literals of Any Shape
------------------------------------------------------------

/- A literal, given a reader for what is in its brackets. -/
def readAround (inner : Reader Datum) : Reader Datum := fun cs =>
  match cs with
  | '\'' :: rest =>
      mapRead (fun letters => .text (String.ofList letters))
        (readQuoted rest)
  | '[' :: rest =>
      mapRead (fun read => .list read.1)
        (readAll inner ']' rest)
  | '(' :: rest => mapRead ofGroup (readAll inner ')' rest)
  | '\x7b' :: rest =>
      mapRead ofMembers (readAll (readMember inner) '\x7d' rest)
  | c :: rest =>
      if c == '-' || c.isDigit then
        readNumber (c :: rest)
      else
        readWord (c :: rest)
  | [] => none

/- A literal with at most so many levels of brackets. -/
def readDatum : (levels : Nat) → Reader Datum
  | 0 => readAround fun _ => none
  | levels + 1 => readAround (readDatum levels)

/-
  What a text stands for that is one literal and nothing else.
  No text has more levels of brackets than characters.
-/
def read? (text : String) : Option Datum :=
  match readDatum text.length text.toList with
  | some (datum, []) => some datum
  | _ => none

end Datum

end PipelineScript
