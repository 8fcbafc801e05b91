import PipelineScript.Text.Control
import PipelineScript.Text.Lines
import PipelineScript.Toml.Value

/-
  Writing TOML.

  A text is written in the plainest of four ways that shows it
  as it is. Only a text that none of them can show has its
  characters escaped.

  Key definitions include:
    * `Toml.Quoting`
    * `Toml.quotingOf`
    * `Toml.writtenText`
    * `Toml.writtenKey`
    * `Toml.assignmentLine`
    * `Toml.tableLine`
    * `Toml.itemLine`
-/

namespace PipelineScript

namespace Toml

------------------------------------------------------------
-- Escapes
------------------------------------------------------------

/- A control character that no quotes show as it is. -/
def isUnprinted (c : Char) : Bool :=
  (c.toNat < 0x20 && c != '\t' && c != '\n')
    || c.toNat == 0x7F

/- A character by its code, in four hexadecimal digits. -/
def codeEscape (c : Char) : List Char :=
  ['\\', 'u']
    ++ Text.padLeft 4
      ((Text.hexDigits c.toNat).map Char.toUpper)

/-
  A character between double quotes, unless it is a quote or a
  line break.
-/
def escapedChar (c : Char) : List Char :=
  if c == '\x08' then
    ['\\', 'b']
  else if c == '\t' then
    ['\\', 't']
  else if c == '\x0C' then
    ['\\', 'f']
  else if c == '\r' then
    ['\\', 'r']
  else if c == '\\' then
    ['\\', '\\']
  else if isUnprinted c then
    codeEscape c
  else
    [c]

/- A character of a text on one line. -/
def escapedBasic (c : Char) : List Char :=
  if c == '"' then
    ['\\', '"']
  else if c == '\n' then
    ['\\', 'n']
  else
    escapedChar c

/-
  A text on several lines, behind so many quotes. Every third
  quote in a row is escaped.
-/
def escapedLong : (quotes : Nat) → List Char → List Char
  | _, [] => []
  | quotes, c :: rest =>
      if c == '"' then
        if quotes == 2 then
          '\\' :: '"' :: escapedLong 0 rest
        else
          '"' :: escapedLong (quotes + 1) rest
      else if c == '\n' then
        '\n' :: escapedLong 0 rest
      else
        escapedChar c ++ escapedLong 0 rest

------------------------------------------------------------
-- Quoting
------------------------------------------------------------

/- The ways to write a text: which quotes, and how many. -/
inductive Quoting where
  | basic
  | literal
  | longBasic
  | longLiteral
deriving DecidableEq, Repr

/- A mark stands three times in a row. -/
def hasTriple (mark : Char) : List Char → Bool
  | c :: d :: e :: rest =>
      (c == mark && d == mark && e == mark)
        || hasTriple mark (d :: e :: rest)
  | _ => false

/- The plainest way to write a text. -/
def quotingOf (cs : List Char) : Quoting :=
  if cs.any isUnprinted then
    if cs.contains '\n' then .longBasic else .basic
  else if !cs.contains '\\'
      && !cs.contains '"' && !cs.contains '\n' then
    .basic
  else if !cs.contains '\x27' && !cs.contains '\n' then
    .literal
  else if !cs.contains '\\' && !hasTriple '"' cs then
    .longBasic
  else if !hasTriple '\x27' cs then
    .longLiteral
  else if cs.contains '\n' then
    .longBasic
  else
    .basic

/- A break in front of a text on several lines. -/
def leadingBreak (cs : List Char) : List Char :=
  if cs.contains '\n' then ['\n'] else []

/- A text in quotes of a kind. -/
def quotedAs
    (quoting : Quoting)
    (cs : List Char) : List Char :=
  match quoting with
  | .basic =>
      '"' :: (cs.flatMap escapedBasic ++ ['"'])
  | .literal => '\x27' :: (cs ++ ['\x27'])
  | .longBasic =>
      ['"', '"', '"'] ++ leadingBreak cs
        ++ escapedLong 0 cs ++ ['"', '"', '"']
  | .longLiteral =>
      ['\x27', '\x27', '\x27'] ++ leadingBreak cs
        ++ cs ++ ['\x27', '\x27', '\x27']

/- A text as a value. -/
def writtenText (text : String) : String :=
  String.ofList (quotedAs (quotingOf text.toList) text.toList)

/- A truth value. -/
def writtenBoolean : Bool → String
  | true => "true"
  | false => "false"

/- An array without items. -/
def writtenEmpty : String :=
  "[]"

------------------------------------------------------------
-- Keys
------------------------------------------------------------

/- The quotes of a key, which stands on one line. -/
def keyQuotingOf (cs : List Char) : Option Quoting :=
  if !cs.isEmpty && cs.all isBareKeyChar then
    none
  else if cs.any isUnprinted || cs.contains '\n' then
    some .basic
  else if !cs.contains '\\' && !cs.contains '"' then
    some .basic
  else if !cs.contains '\x27' then
    some .literal
  else
    some .basic

/- A key, in quotes if it needs them. -/
def writtenKey (key : String) : String :=
  match keyQuotingOf key.toList with
  | none => key
  | some quoting => String.ofList (quotedAs quoting key.toList)

/- Keys with points between them. -/
def writtenPath (path : List String) : String :=
  ".".intercalate (path.map writtenKey)

------------------------------------------------------------
-- Lines
------------------------------------------------------------

/- A line that gives a written value to a key. -/
def assignmentLine (key written : String) : String :=
  writtenKey key ++ " = " ++ written

/- A line that opens a table. -/
def tableLine (path : List String) : String :=
  "[" ++ writtenPath path ++ "]"

/- A line that opens one more item of a list of tables. -/
def itemLine (path : List String) : String :=
  "[[" ++ writtenPath path ++ "]]"

end Toml

end PipelineScript
