import PipelineScript.Text.CaseTable

/-
  Lower-casing of a text in any script.

  A character has a lower-case form of its own, one or two
  characters long. The capital sigma alone looks at its
  neighbours: it takes the final form where it ends a word.

  Key definitions include:
    * `Text.inRanges`
    * `Text.lowerForm`
    * `Text.endsWord`
    * `Text.lowerCase`
-/

namespace PipelineScript

namespace Text

------------------------------------------------------------
-- Look-Up in Tables
------------------------------------------------------------

/- The code point of a character lies in one of the ranges. -/
def inRanges
    (table : List (Nat × Nat))
    (c : Char) : Bool :=
  table.any fun range =>
    range.1 ≤ c.toNat && c.toNat ≤ range.2

/- A character with an upper-case, lower-case or title form. -/
def isCased (c : Char) : Bool :=
  inRanges casedRanges c

/- A character that is passed over when a word is read. -/
def isCaseIgnorable (c : Char) : Bool :=
  inRanges caseIgnorableRanges c

/- The place of a code point in a run, if it is a member. -/
def memberOfRun
    (code : Nat)
    (run : Nat × Nat × Nat × Nat) : Option Nat :=
  let (first, last, step, target) := run
  if first ≤ code && code ≤ last && (code - first) % step == 0 then
    some (target + (code - first))
  else
    none

------------------------------------------------------------
-- Lower-Case Forms
------------------------------------------------------------

/-
  The lower-case form of one character on its own. The
  dotted capital I keeps its dot as a mark.
-/
def lowerForm (c : Char) : List Char :=
  if c.toNat < 0x80 then
    [c.toLower]
  else if c == '\u0130' then
    ['i', '\u0307']
  else
    match lowerRuns.findSome? (memberOfRun c.toNat) with
    | some code => [Char.ofNat code]
    | none => [c]

/-
  The nearest character that counts, from here outwards, has
  a case.
-/
def meetsCased (cs : List Char) : Bool :=
  match cs.dropWhile isCaseIgnorable with
  | [] => false
  | c :: _ => isCased c

/-
  A letter ends its word when letters stand before it and
  none after it. The characters before it are given from the
  nearest one outwards.
-/
def endsWord
    (before after : List Char) : Bool :=
  meetsCased before && !meetsCased after

/-
  The lower-case form of a character between its neighbours.
-/
def lowerFormBetween
    (before : List Char)
    (c : Char)
    (after : List Char) : List Char :=
  if c == '\u03A3' then
    [if endsWord before after then '\u03C2' else '\u03C3']
  else
    lowerForm c

/- Lower-case the rest of a text, given what stands before. -/
def lowerCaseFrom
    (before : List Char) :
    List Char → List Char
  | [] => []
  | c :: after =>
      lowerFormBetween before c after
        ++ lowerCaseFrom (c :: before) after

/- The text in lower case. -/
def lowerCase (text : String) : String :=
  String.ofList (lowerCaseFrom [] text.toList)

end Text

end PipelineScript
