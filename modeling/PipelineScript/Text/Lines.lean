/-
  Lines of a text.

  A line ends at a line feed, at a carriage return, or at the
  two together. All breaks are made line feeds first. A break
  at the very end opens no further line.

  Key definitions include:
    * `Text.unifyBreaks`
    * `Text.fedLines`
    * `Text.lines`
    * `Text.unlines`
-/

namespace PipelineScript

namespace Text

------------------------------------------------------------
-- Breaks
------------------------------------------------------------

/- A carriage return and the line feed behind it are one. -/
def joinBreaks : List Char → List Char
  | [] => []
  | '\r' :: '\n' :: rest => '\n' :: joinBreaks rest
  | c :: rest => c :: joinBreaks rest

/- A carriage return alone becomes a line feed. -/
def breakChar (c : Char) : Char :=
  if c == '\r' then '\n' else c

/- The characters with line feeds for all breaks. -/
def unifyBreaks (cs : List Char) : List Char :=
  (joinBreaks cs).map breakChar

------------------------------------------------------------
-- Lines
------------------------------------------------------------

/- The parts that line feeds end, and what is left behind. -/
def fedLines : List Char → List (List Char)
  | [] => []
  | '\n' :: rest => [] :: fedLines rest
  | c :: rest =>
      match fedLines rest with
      | [] => [[c]]
      | line :: lines => (c :: line) :: lines

/- A line without the carriage return at its end. -/
def withoutReturn (line : List Char) : List Char :=
  if line.getLast? == some '\r' then line.dropLast else line

/- The lines of a text. -/
def lines (text : String) : List String :=
  (fedLines (unifyBreaks text.toList)).map fun line =>
    String.ofList (withoutReturn line)

/- The text in which every line is ended by a line feed. -/
def unlines : List String → String
  | [] => ""
  | line :: rest => line ++ "\n" ++ unlines rest

end Text

end PipelineScript
