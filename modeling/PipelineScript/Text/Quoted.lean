import PipelineScript.Text.Control
import PipelineScript.Text.LowerCase
import PipelineScript.Text.VisibleTable

/-
  A text shown in double quotes, so that every character can
  be told apart: what has no shape of its own, or would join
  the character before it, is written as its code point.

  Key definitions include:
    * `Text.isShown`
    * `Text.quotedChar`
    * `Text.quoted`
    * `Text.quotedPath`
-/

namespace PipelineScript

namespace Text

/- A character that a quoted text shows as it is. -/
def isShown (c : Char) : Bool :=
  !inRanges extendingRanges c && !inRanges hiddenRanges c

/- One character inside double quotes. -/
def quotedChar (c : Char) : List Char :=
  if c == '\x00' then
    ['\\', '0']
  else if c == '\t' then
    ['\\', 't']
  else if c == '\r' then
    ['\\', 'r']
  else if c == '\n' then
    ['\\', 'n']
  else if c == '\\' then
    ['\\', '\\']
  else if c == '"' then
    ['\\', '"']
  else if isShown c then
    [c]
  else
    "\\u\x7b".toList ++ hexDigits c.toNat ++ ['\x7d']

/- A text in double quotes. -/
def quoted (text : String) : String :=
  String.ofList
    ('"' :: (text.toList.flatMap quotedChar ++ ['"']))

/-
  One character of a path inside double quotes. In a path an
  apostrophe is escaped too.
-/
def quotedPathChar (c : Char) : List Char :=
  if c == '\'' then
    ['\\', '\'']
  else
    quotedChar c

/- A path in double quotes. -/
def quotedPath (path : String) : String :=
  String.ofList
    ('"' :: (path.toList.flatMap quotedPathChar ++ ['"']))

end Text

end PipelineScript
