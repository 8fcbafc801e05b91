import PipelineScript.Toml.Printer

/-
  Tables that are written as documents.

  An outline says which lines a document has: a text, a truth
  value or an empty array for each key, some of them behind
  headers, with an empty line in front of every header. The
  values of a table come first, then the tables inside it.

  Key definitions include:
    * `Toml.Content`
    * `Toml.Keyed`
    * `Toml.Part`
    * `Toml.Outline`
    * `Toml.partsWithin?`
    * `Toml.Outline.ofMembers?`
-/

namespace PipelineScript

namespace Toml

------------------------------------------------------------
-- Contents
------------------------------------------------------------

/- A value that is written on one line. -/
inductive Content where
  | text (shown : String)
  | boolean (flag : Bool)
  | emptyArray
deriving DecidableEq, Repr

namespace Content

/- The content as it is written. -/
def shown : Content → String
  | .text shown => writtenText shown
  | .boolean flag => writtenBoolean flag
  | .emptyArray => writtenEmpty

/- The content as a value. -/
def value : Content → Value
  | .text shown => .text shown
  | .boolean flag => .boolean flag
  | .emptyArray => .array []

/- The content that a value is, if it is written on one line. -/
def ofValue? : Value → Option Content
  | .text shown => some (.text shown)
  | .boolean flag => some (.boolean flag)
  | .array [] => some .emptyArray
  | _ => none

end Content

/- A key and its content. -/
structure Keyed where
  key : String
  content : Content
deriving DecidableEq, Repr

namespace Keyed

/- The line of an entry. -/
def line (entry : Keyed) : String :=
  assignmentLine entry.key entry.content.shown

/- The entry that a member is, if it is written on one line. -/
def ofMember? (member : String × Value) : Option Keyed :=
  (Content.ofValue? member.2).map fun content =>
    ⟨member.1, content⟩

end Keyed

/- The members that are written on lines of their own. -/
def ownEntries (members : List (String × Value)) : List Keyed :=
  members.filterMap Keyed.ofMember?

------------------------------------------------------------
-- Parts
------------------------------------------------------------

/- A header, and the entries under it. -/
structure Part where
  header : Header
  entries : List Keyed
deriving DecidableEq, Repr

namespace Part

/- The line of the header. -/
def headerLine (part : Part) : String :=
  if part.header.opensItem then
    itemLine part.header.path
  else
    tableLine part.header.path

/- The lines of a part, with an empty one in front. -/
def lines (part : Part) : List String :=
  "" :: part.headerLine :: part.entries.map Keyed.line

/- The part with a key in front of its path. -/
def inside (key : String) (part : Part) : Part where
  header :=
    { opensItem := part.header.opensItem
      path := key :: part.header.path }
  entries := part.entries

end Part

/-
  The parts of a table under a key, given those of the tables
  inside it. It needs no header of its own if it has nothing to
  show but these.
-/
def tableParts
    (key : String)
    (members : List (String × Value))
    (inner : List Part) : List Part :=
  (if (ownEntries members).isEmpty && !inner.isEmpty then
    []
  else
    [⟨⟨false, [key]⟩, ownEntries members⟩])
    ++ inner.map (Part.inside key)

/- The part of an item of a list of tables, each on its lines. -/
def itemPart? (key : String) : Value → Option Part
  | .table members =>
      (members.mapM Keyed.ofMember?).map fun entries =>
        ⟨⟨true, [key]⟩, entries⟩
  | _ => none

/-
  The parts of a member that is not written on one line, given
  how the members of a table are written. Only tables and lists
  of tables have parts.
-/
def partsUnder?
    (inner? : List (String × Value) → Option (List Part))
    (key : String) : Value → Option (List Part)
  | .table members => (inner? members).map (tableParts key members)
  | .array items => items.mapM (itemPart? key)
  | _ => none

/- The parts of a member, of which a single line needs none. -/
def partsOf?
    (inner? : List (String × Value) → Option (List Part))
    (member : String × Value) : Option (List Part) :=
  match Content.ofValue? member.2 with
  | some _ => some []
  | none => partsUnder? inner? member.1 member.2

/- The parts of members with fewer levels than the given ones. -/
def partsWithin? :
    (levels : Nat) → List (String × Value) → Option (List Part)
  | 0, _ => none
  | levels + 1, members =>
      (members.mapM (partsOf? (partsWithin? levels))).map
        List.flatten

------------------------------------------------------------
-- Outlines
------------------------------------------------------------

/- Entries at the top, and the parts behind them. -/
structure Outline where
  entries : List Keyed
  parts : List Part
deriving DecidableEq, Repr

namespace Outline

/- The lines of an outline. -/
def lines (outline : Outline) : List String :=
  outline.entries.map Keyed.line
    ++ outline.parts.flatMap Part.lines

/- The outline of a table, if it has only what can be shown. -/
def ofMembers?
    (members : List (String × Value)) : Option Outline :=
  (partsWithin? (levelLimit - 1) members).map
    (⟨ownEntries members, ·⟩)

end Outline

end Toml

end PipelineScript
