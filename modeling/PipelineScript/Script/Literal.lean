import PipelineScript.Json.Value
import PipelineScript.Number.Layout
import PipelineScript.Text.Control

/-
  Values as literals of a script.

  Every value has one literal on one line. Text that goes into
  a comment keeps its tabs, and no other control character.

  Key definitions include:
    * `Literal.boolean`
    * `Literal.integer`
    * `Literal.binary`
    * `Literal.text`
    * `Literal.comment`
    * `Literal.value`
    * `Literal.tuple`
-/

namespace PipelineScript

namespace Literal

------------------------------------------------------------
-- Scalars
------------------------------------------------------------

/- A truth value. -/
def boolean : Bool → String
  | true => "True"
  | false => "False"

/- An integer in base ten. -/
def integer (n : Int) : String :=
  String.ofList (Number.intText n)

/-
  Binary numbers are written out without a power of ten, and
  a tie between two shortest forms goes away from zero.
-/
def layout : Number.Layout where
  tie := .awayFromZero
  isPositional := fun _ => true

/- A finite binary number. -/
def binary (x : Binary64) : String :=
  String.ofList (layout.render x)

/- Any pattern of 64 bits as a number. -/
def pattern : Binary64Pattern → String
  | .finite x => binary x
  | .infinite false => "float('inf')"
  | .infinite true => "float('-inf')"
  | .notANumber => "float('nan')"

/- A number in its written kind. -/
def number : Number → String
  | .integer value _ => integer value
  | .binary value => binary value

------------------------------------------------------------
-- Texts
------------------------------------------------------------

/- A control character as an escape. -/
def escapedControl (c : Char) : List Char :=
  if c == '\n' then
    ['\\', 'n']
  else if c == '\r' then
    ['\\', 'r']
  else if c == '\t' then
    ['\\', 't']
  else
    ['\\', 'x'] ++ Text.hexPair c.toNat

/- A character inside single quotes. -/
def quotedChar (c : Char) : List Char :=
  if c == '\\' then
    ['\\', '\\']
  else if c == '\'' then
    ['\\', '\'']
  else if Text.isControl c then
    escapedControl c
  else
    [c]

/- A text in single quotes. -/
def text (value : String) : String :=
  String.ofList
    ('\'' :: (value.toList.flatMap quotedChar ++ ['\'']))

/- A character inside a comment. -/
def commentChar (c : Char) : List Char :=
  if c != '\t' && Text.isControl c then
    escapedControl c
  else
    [c]

/- A text for a comment, on one line. -/
def comment (value : String) : String :=
  String.ofList (value.toList.flatMap commentChar)

------------------------------------------------------------
-- Values
------------------------------------------------------------

mutual

/- A value of any shape. -/
def value : Json.Value → String
  | .null => "None"
  | .boolean flag => boolean flag
  | .number n => number n
  | .text content => text content
  | .array items =>
      "[" ++ ", ".intercalate (itemTexts items) ++ "]"
  | .object members =>
      "\x7b" ++ ", ".intercalate (memberTexts members) ++ "\x7d"

/- The items of a list. -/
def itemTexts : List Json.Value → List String
  | [] => []
  | item :: rest => value item :: itemTexts rest

/- The members of a mapping. -/
def memberTexts : List (String × Json.Value) → List String
  | [] => []
  | (key, item) :: rest =>
      (text key ++ ": " ++ value item) :: memberTexts rest

end

/- Values as a tuple. One value alone has a comma behind it. -/
def tuple (items : List Json.Value) : String :=
  match itemTexts items with
  | [single] => "(" ++ single ++ ",)"
  | parts => "(" ++ ", ".intercalate parts ++ ")"

end Literal

end PipelineScript
