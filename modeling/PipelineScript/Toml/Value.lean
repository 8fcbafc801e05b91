import PipelineScript.Number.Binary64

/-
  TOML documents: lines that give values to keys, in sections
  that are opened by headers, and the values they can give.

  Key definitions include:
    * `Toml.Moment`
    * `Toml.Value`
    * `Toml.levelLimit`
    * `Toml.isBareKeyChar`
    * `Toml.Assignment`
    * `Toml.Header`
    * `Toml.Document`
-/

namespace PipelineScript

namespace Toml

/- A day of a year. -/
structure Date where
  year : Nat
  month : Nat
  day : Nat
deriving DecidableEq, Repr

/- A time of a day, with the digits behind the second. -/
structure Clock where
  hour : Nat
  minute : Nat
  second : Nat
  fraction : List Char
deriving DecidableEq, Repr

/- How far a clock is ahead of the common time. -/
structure Offset where
  isBehind : Bool
  hour : Nat
  minute : Nat
deriving DecidableEq, Repr

/- A day, a time, or both, perhaps with an offset. -/
structure Moment where
  date : Option Date
  clock : Option Clock
  offset : Option Offset
deriving DecidableEq, Repr

/- A value. Tables have their members in order. -/
inductive Value where
  | text (content : String)
  | boolean (flag : Bool)
  | integer (n : Int)
  | binary (pattern : Binary64Pattern)
  | moment (moment : Moment)
  | array (items : List Value)
  | table (members : List (String × Value))
deriving Repr

instance : Inhabited Value :=
  ⟨.boolean false⟩

/- How many levels a path or a value must stay below. -/
def levelLimit : Nat :=
  80

/- A character of a key that needs no quotes. -/
def isBareKeyChar (c : Char) : Bool :=
  c.isAlphanum || c == '-' || c == '_'

/- A path of keys and the value that stands at its end. -/
structure Assignment where
  path : List String
  value : Value
deriving Repr, Inhabited

/- A header opens a table, or one more item of a list. -/
structure Header where
  opensItem : Bool
  path : List String
deriving DecidableEq, Repr

/- A header with what is assigned under it. -/
structure Section where
  header : Header
  assignments : List Assignment
deriving Repr

/- What is assigned at the top, and the sections behind it. -/
structure Document where
  assignments : List Assignment
  sections : List Section
deriving Repr

end Toml

end PipelineScript
