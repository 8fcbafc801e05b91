import PipelineScript.Json.Codec

/-
  What is asked of a library that reads and writes JSON.

  A value is printed as a text that shows it, if the library
  does so with the binary numbers in it: to write such a number
  and to read it again is not the same for every library.

  Key definitions include:
    * `Json.Value.binaries`
    * `Json.Codec.Keeps`
    * `Json.Codec.IsFaithful`
-/

namespace PipelineScript

namespace Json

------------------------------------------------------------
-- Binary Numbers
------------------------------------------------------------

namespace Value

mutual

/- The binary numbers in a value, at any depth. -/
def binaries : Value → List Binary64
  | .number (.binary x) => [x]
  | .array items => itemBinaries items
  | .object members => memberBinaries members
  | _ => []

/- The binary numbers in items. -/
def itemBinaries : List Value → List Binary64
  | [] => []
  | item :: rest => binaries item ++ itemBinaries rest

/- The binary numbers in members. -/
def memberBinaries : List (String × Value) → List Binary64
  | [] => []
  | (_, value) :: rest => binaries value ++ memberBinaries rest

end

end Value

------------------------------------------------------------
-- Faithful Libraries
------------------------------------------------------------

namespace Codec

/- A value is printed as a text that shows it. -/
def Stores [Codec] (value : Value) : Prop :=
  ∃ text,
    Codec.print value = .ok text ∧
      Codec.parse text = .ofValue value

/- A binary number is read back from what it is printed as. -/
def Keeps [Codec] (x : Binary64) : Prop :=
  Stores (.number (.binary x))

/-
  A library that follows the format: every value is printed as
  a text that shows it, as far as binary numbers are.
-/
structure IsFaithful [Codec] : Prop where
  stores :
    ∀ {value : Value},
      (∀ x ∈ value.binaries, Keeps x) → Stores value

end Codec

end Json

end PipelineScript
