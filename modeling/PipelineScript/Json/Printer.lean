import PipelineScript.Json.Value
import PipelineScript.Number.Layout
import PipelineScript.Text.Control

/-
  JSON values as text.

  Values are written on one line, or with one item a line and
  two spaces for every level. Empty containers stay closed.

  Key definitions include:
    * `Json.numberLayout`
    * `Json.escapedChar`
    * `Json.quotedText`
    * `Json.Spacing`
    * `Json.Value.render`
    * `Json.Value.compact`
    * `Json.Value.pretty`
-/

namespace PipelineScript

namespace Json

------------------------------------------------------------
-- Scalars
------------------------------------------------------------

/-
  Binary numbers are written out from `0.00001` up to sixteen
  digits in front of the point.
-/
def numberLayout : Number.Layout where
  tie := .toEven
  isPositional := fun point => -5 < point && point ≤ 16

/- A number as text. -/
def numberText : Number → List Char
  | .integer value _ => Number.intText value
  | .binary value => numberLayout.render value

/- One character of a text in double quotes. -/
def escapedChar (c : Char) : List Char :=
  if c == '"' then
    ['\\', '"']
  else if c == '\\' then
    ['\\', '\\']
  else if c == '\x08' then
    ['\\', 'b']
  else if c == '\x0C' then
    ['\\', 'f']
  else if c == '\n' then
    ['\\', 'n']
  else if c == '\r' then
    ['\\', 'r']
  else if c == '\t' then
    ['\\', 't']
  else if c.toNat < 0x20 then
    ['\\', 'u', '0', '0'] ++ Text.hexPair c.toNat
  else
    [c]

/- A text in double quotes. -/
def quotedText (text : String) : List Char :=
  '"' :: (text.toList.flatMap escapedChar ++ ['"'])

------------------------------------------------------------
-- Containers
------------------------------------------------------------

/-
  The room between the parts of a value: what goes in front
  of an item at a depth, and what goes behind a key.
-/
structure Spacing where
  beforeItem : (depth : Nat) → List Char
  afterKey : List Char

namespace Spacing

/- No room at all. -/
def tight : Spacing where
  beforeItem := fun _ => []
  afterKey := [':']

/- One item a line, two spaces for every level. -/
def wide : Spacing where
  beforeItem := fun depth =>
    '\n' :: List.replicate (2 * depth) ' '
  afterKey := [':', ' ']

/- Parts between brackets, with commas between them. -/
def enclose
    (spacing : Spacing)
    (depth : Nat)
    (opening closing : Char)
    (parts : List (List Char)) : List Char :=
  if parts.isEmpty then
    [opening, closing]
  else
    opening ::
      (List.intercalate [',']
          (parts.map (spacing.beforeItem (depth + 1) ++ ·))
        ++ spacing.beforeItem depth
        ++ [closing])

end Spacing

namespace Value

mutual

/- A value that stands at some depth, as text. -/
def render
    (spacing : Spacing)
    (depth : Nat) : Value → List Char
  | .null => ['n', 'u', 'l', 'l']
  | .boolean true => ['t', 'r', 'u', 'e']
  | .boolean false => ['f', 'a', 'l', 's', 'e']
  | .number value => numberText value
  | .text value => quotedText value
  | .array items =>
      spacing.enclose depth '[' ']'
        (renderItems spacing (depth + 1) items)
  | .object members =>
      spacing.enclose depth '\x7b' '\x7d'
        (renderMembers spacing (depth + 1) members)

/- The items of an array, each as text. -/
def renderItems
    (spacing : Spacing)
    (depth : Nat) : List Value → List (List Char)
  | [] => []
  | item :: rest =>
      render spacing depth item
        :: renderItems spacing depth rest

/- The members of an object, each as text. -/
def renderMembers
    (spacing : Spacing)
    (depth : Nat) :
    List (String × Value) → List (List Char)
  | [] => []
  | (key, value) :: rest =>
      (quotedText key ++ spacing.afterKey
          ++ render spacing depth value)
        :: renderMembers spacing depth rest

end

/- The value on one line. -/
def compact (value : Value) : String :=
  String.ofList (value.render .tight 0)

/- The value with one item a line. -/
def pretty (value : Value) : String :=
  String.ofList (value.render .wide 0)

end Value

end Json

end PipelineScript
