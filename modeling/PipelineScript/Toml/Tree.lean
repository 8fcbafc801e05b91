import PipelineScript.Table
import PipelineScript.Toml.Value

/-
  Tables that are filled by assignments and headers.

  A table is opened by a header, or comes about because a
  header or an assignment leads through it. It is defined in
  one of these ways only: no table is opened twice, and what
  a header opened is not added to from outside.

  Key definitions include:
    * `Toml.Origin`
    * `Toml.Tree`
    * `Toml.assign`
    * `Toml.under`
    * `Toml.Document.members?`
-/

namespace PipelineScript

namespace Toml

------------------------------------------------------------
-- Trees
------------------------------------------------------------

/- How a table came about. -/
inductive Origin where
  | opened
  | passed
  | assigned
deriving DecidableEq, Repr

/- A value, a table that can grow, or a list of such tables. -/
inductive Tree where
  | leaf (value : Value)
  | table (origin : Origin) (entries : List (String × Tree))
  | list (tables : List (List (String × Tree)))
deriving Repr

instance : Inhabited Tree :=
  ⟨.list []⟩

/- The members of a table that is being filled. -/
abbrev Branches :=
  List (String × Tree)

mutual

/- The value that a tree has become. -/
def Tree.value : Tree → Value
  | .leaf value => value
  | .table _ entries => .table (membersOf entries)
  | .list tables => .array (tablesOf tables)

/- The members that entries have become. -/
def membersOf :
    List (String × Tree) → List (String × Value)
  | [] => []
  | (key, tree) :: rest => (key, tree.value) :: membersOf rest

/- The tables that a list has become. -/
def tablesOf :
    List (List (String × Tree)) → List Value
  | [] => []
  | entries :: rest =>
      .table (membersOf entries) :: tablesOf rest

end

/- Change the last table of a list. -/
def onLast
    (f : Branches → Option Branches) :
    List Branches → Option (List Branches)
  | [] => none
  | [entries] => (f entries).map fun changed => [changed]
  | entries :: next :: rest =>
      (onLast f (next :: rest)).map (entries :: ·)

------------------------------------------------------------
-- Assignments
------------------------------------------------------------

/-
  Give a value to a path. The path may end here only if the
  table is the one that is being filled, or was made by an
  assignment itself.
-/
def assign
    (value : Value) :
    (mayEnd : Bool) → (path : List String) →
      Branches → Option Branches
  | _, [], _ => none
  | mayEnd, [key], entries =>
      if mayEnd && (entries.lookup key).isNone then
        some (entries ++ [(key, .leaf value)])
      else
        none
  | _, key :: next :: path, entries =>
      match entries.lookup key with
      | none =>
          (assign value true (next :: path) []).map
            fun inner => entries ++ [(key, .table .assigned inner)]
      | some (.table .opened _) => none
      | some (.table .assigned inner) =>
          (assign value true (next :: path) inner).map
            fun changed =>
              Entries.put key (.table .assigned changed) entries
      | some (.table .passed inner) =>
          (assign value false (next :: path) inner).map
            fun changed =>
              Entries.put key (.table .passed changed) entries
      | some (.list tables) =>
          (onLast (assign value false (next :: path)) tables).map
            fun changed =>
              Entries.put key (.list changed) entries
      | some (.leaf _) => none

/- Give values to paths, one after the other. -/
def assignAll :
    List Assignment → Branches → Option Branches
  | [], entries => some entries
  | assignment :: rest, entries =>
      match assign assignment.value true assignment.path entries with
      | none => none
      | some changed => assignAll rest changed

/- The members that assignments make by themselves. -/
def membersOfAll
    (assignments : List Assignment) :
    Option (List (String × Value)) :=
  (assignAll assignments []).map membersOf

------------------------------------------------------------
-- Headers
------------------------------------------------------------

/- Fill the table that a header opens at the end of its path. -/
def openLast
    (opensItem : Bool)
    (fill : Branches → Option Branches)
    (key : String)
    (entries : Branches) : Option Branches :=
  if opensItem then
    match entries.lookup key with
    | none =>
        (fill []).map fun made =>
          entries ++ [(key, .list [made])]
    | some (.list tables) =>
        (fill []).map fun made =>
          Entries.put key (.list (tables ++ [made])) entries
    | some _ => none
  else
    match entries.lookup key with
    | none =>
        (fill []).map fun made =>
          entries ++ [(key, .table .opened made)]
    | some (.table .passed inner) =>
        (fill inner).map fun made =>
          Entries.put key (.table .opened made) entries
    | some _ => none

/- Fill the table that a header opens, wherever it stands. -/
def under
    (opensItem : Bool)
    (fill : Branches → Option Branches) :
    (path : List String) → Branches → Option Branches
  | [], _ => none
  | [key], entries => openLast opensItem fill key entries
  | key :: next :: path, entries =>
      match entries.lookup key with
      | none =>
          (under opensItem fill (next :: path) []).map
            fun inner => entries ++ [(key, .table .passed inner)]
      | some (.table origin inner) =>
          (under opensItem fill (next :: path) inner).map
            fun changed =>
              Entries.put key (.table origin changed) entries
      | some (.list tables) =>
          (onLast (under opensItem fill (next :: path)) tables).map
            fun changed =>
              Entries.put key (.list changed) entries
      | some (.leaf _) => none

/- Fill the tables of sections, one after the other. -/
def underAll :
    List Section → Branches → Option Branches
  | [], entries => some entries
  | part :: rest, entries =>
      match
        under part.header.opensItem
          (assignAll part.assignments) part.header.path
          entries with
      | none => none
      | some changed => underAll rest changed

namespace Document

/- The members of the table that a document describes. -/
def members?
    (document : Document) : Option (List (String × Value)) :=
  match assignAll document.assignments [] with
  | none => none
  | some entries =>
      (underAll document.sections entries).map membersOf

end Document

end Toml

end PipelineScript
