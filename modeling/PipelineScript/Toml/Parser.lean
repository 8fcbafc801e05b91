import PipelineScript.Toml.Scalar
import PipelineScript.Toml.Tree

/-
  Reading TOML documents.

  Key definitions include:
    * `Toml.keyPath`
    * `Toml.value`
    * `Toml.assignment`
    * `Toml.header`
    * `Toml.Document.parse?`
    * `Toml.read?`
-/

namespace PipelineScript

namespace Toml

open Reader

------------------------------------------------------------
-- Keys
------------------------------------------------------------

/- A key in double quotes. -/
def basicKey : Reader (List Char) :=
  (Reader.mk readBasic length_lt_of_readBasic).behind (exact '"')

/- A key in single quotes. -/
def literalKey : Reader (List Char) :=
  (Reader.mk readLiteral length_lt_of_readLiteral).behind
    (exact '\x27')

/- A key, with or without quotes. -/
def key : Reader String :=
  ((run1 isBareKeyChar).orElse
    (basicKey.orElse literalKey)).map String.ofList

/- Keys with points between them. -/
def keyPath : Reader (List String) :=
  (separated '.'
    ((key.afterGap spaces).beforeGap spaces)).filterMap
      fun path =>
        if path.length < levelLimit then some path else none

------------------------------------------------------------
-- Values
------------------------------------------------------------

/- A path and a value with an equals sign between them. -/
def assignmentOf (value : Reader Value) : Reader Assignment :=
  ((keyPath.before (exact '=')).andThen
    (value.afterGap spaces)).map
      fun (path, value) => ⟨path, value⟩

/- Values between brackets, on any number of lines. -/
def arrayOf (value : Reader Value) : Reader Value :=
  (enclosed '[' ']' true breaks
    ((value.afterGap breaks).beforeGap breaks)).map .array

/- Assignments between braces, on one line. -/
def tableOf (value : Reader Value) : Reader Value :=
  (enclosed '\x7b' '\x7d' false spaces
    ((assignmentOf value).beforeGap spaces)).filterMap
      fun assignments =>
        (membersOfAll assignments).map .table

/- A value with at most so many levels. -/
def valueWithin : (depth : Nat) → Reader Value
  | 0 => scalar
  | depth + 1 =>
      let inner := valueWithin depth
      scalar.orElse ((arrayOf inner).orElse (tableOf inner))

/- A value. -/
def value : Reader Value :=
  valueWithin (levelLimit - 1)

/- A path and its value. -/
def assignment : Reader Assignment :=
  assignmentOf value

------------------------------------------------------------
-- Lines
------------------------------------------------------------

/- A header, in one pair of brackets or in two. -/
def header : Reader Header :=
  ((((((keyPath.behind (exact '[')).behind
    (exact '[')).before (exact ']')).before (exact ']')).map
      fun path => (⟨true, path⟩ : Header)).orElse
    (((keyPath.behind (exact '[')).before (exact ']')).map
      fun path => ⟨false, path⟩)).afterGap spaces

/-
  The assignments of the next lines, up to a header or to the
  end. Lines that say nothing are passed over.
-/
def readAssignments
    (cs : List Char) : Option (List Assignment × List Char) :=
  match cs with
  | [] => some ([], [])
  | c :: rest =>
      match hBlank : lineEnd? (c :: rest) with
      | some after =>
          have : after.length < rest.length + 1 :=
            length_lt_of_lineEnd hBlank
          readAssignments after
      | none =>
          if (spaces.skip (c :: rest)).head? == some '[' then
            some ([], c :: rest)
          else
            match hRead : assignment.run (c :: rest) with
            | none => none
            | some (first, tail) =>
                match hEnd : lineEnd? tail with
                | none => none
                | some after =>
                    have : after.length < rest.length + 1 :=
                      Nat.lt_of_le_of_lt
                        (length_le_of_lineEnd hEnd)
                        (assignment.shrinks hRead)
                    (readAssignments after).map
                      fun (others, last) =>
                        (first :: others, last)
termination_by cs.length

/- Reading assignments makes a text no longer. -/
theorem length_readAssignments_le
    {cs rest : List Char}
    {assignments : List Assignment}
    (h : readAssignments cs = some (assignments, rest)) :
    rest.length ≤ cs.length := by
  fun_induction readAssignments cs generalizing assignments with
  | case1 =>
      simp only [Option.some.injEq, Prod.mk.injEq] at h
      exact Nat.le_of_eq (congrArg List.length h.2.symm)
  | case2 c tail after hBlank hLt ih =>
      exact Nat.le_of_lt (Nat.lt_of_le_of_lt (ih h) hLt)
  | case3 c tail hBlank hOpen =>
      simp only [Option.some.injEq, Prod.mk.injEq] at h
      exact Nat.le_of_eq (congrArg List.length h.2.symm)
  | case4 => simp at h
  | case5 => simp at h
  | case6 c tail hBlank hOpen first middle hRead after hEnd hLt
      ih =>
      obtain ⟨⟨others, last⟩, hOthers, hMade⟩ :=
        Option.map_eq_some_iff.1 h
      simp only [Prod.mk.injEq] at hMade
      rw [hMade.2] at hOthers
      exact Nat.le_of_lt (Nat.lt_of_le_of_lt (ih hOthers) hLt)

/- The sections of the next lines, up to the end. -/
def readSections
    (cs : List Char) : Option (List Section) :=
  match cs with
  | [] => some []
  | c :: rest =>
      match hHeader : header.run (c :: rest) with
      | none => none
      | some (header, tail) =>
          match hEnd : lineEnd? tail with
          | none => none
          | some behind =>
              match hRead : readAssignments behind with
              | none => none
              | some (assignments, after) =>
                  have : after.length < rest.length + 1 :=
                    Nat.lt_of_le_of_lt
                      (Nat.le_trans
                        (length_readAssignments_le hRead)
                        (length_le_of_lineEnd hEnd))
                      (Toml.header.shrinks hHeader)
                  (readSections after).map
                    (⟨header, assignments⟩ :: ·)
termination_by cs.length

------------------------------------------------------------
-- Documents
------------------------------------------------------------

/- A mark of the encoding at the front does not count. -/
def dropEncodingMark (cs : List Char) : List Char :=
  match cs with
  | '\uFEFF' :: rest => rest
  | _ => cs

/- The document that a text is. -/
def Document.parse? (text : String) : Option Document :=
  match readAssignments (dropEncodingMark text.toList) with
  | none => none
  | some (assignments, rest) =>
      (readSections rest).map (⟨assignments, ·⟩)

/- The members of the table that a text describes. -/
def read?
    (text : String) : Option (List (String × Value)) :=
  (Document.parse? text).bind Document.members?

end Toml

end PipelineScript
