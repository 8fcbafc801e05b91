import PipelineScript.Json.Codec
import PipelineScript.Json.Reader

/-
  Readers of containers whose parts have one shape, and the
  decoding of a whole text.

  Key definitions include:
    * `Json.Reader.list`
    * `Json.Reader.table`
    * `Json.Reader.variant`
    * `Json.decode`
-/

namespace PipelineScript

namespace Json

namespace Reader

variable {ω α : Type}

------------------------------------------------------------
-- Lists and Tables
------------------------------------------------------------

/-
  A list of values of one shape. A level must be left for it,
  and its items have those that are left then.
-/
def list
    (item : Nat → Reader ω α)
    (depth : Nat) : Reader ω (List α) where
  read
    | .array documents ending =>
        match depth with
        | 0 => .fail .malformed
        | depth + 1 => items (item depth) ending documents
    | other => .fail (other.mismatch "a sequence")

/-
  A table of values of one shape, with a name for every key.
  A key that comes again keeps its first place and takes its
  last value.
-/
def table
    {κ : Type}
    [DecidableEq κ]
    (named : String → κ)
    (item : Nat → Reader ω α)
    (depth : Nat) : Reader ω (Table κ α) where
  read
    | .object documents ending =>
        match depth with
        | 0 => .fail .malformed
        | depth + 1 =>
            members
              (fun entries key =>
                (item depth).map (entries.insert (named key) ·))
              ending documents .empty
    | other => .fail (other.mismatch "a map")

------------------------------------------------------------
-- One of Several Names
------------------------------------------------------------

/- What a name stands for, if it is one of the given ones. -/
def knownName
    (known : List (String × α))
    (name : String) : Traced ω Fault α :=
  match known.lookup name with
  | some value => .done value
  | none =>
      .fail (.mismatch
        (.unknownVariant name (known.map Prod.fst)))

/- One of the given names as the only key, above `null`. -/
def namedNull
    (known : List (String × α))
    (ending : Option Fault) :
    List (Except Fault String × Document) → Traced ω Fault α
  | [] => .fail (ending.getD .malformed)
  | (.error cause, _) :: _ => .fail cause
  | (.ok name, document) :: rest => do
      let value ← knownName known name
      unit.read document
      if rest.isEmpty then
        closed ending value
      else
        .fail .malformed

/-
  One of several names: a text, or an object that has the
  name as its only key. What begins as anything else is no
  name, whatever it is.
-/
def variant
    (known : List (String × α))
    (depth : Nat) : Reader ω α where
  read
    | .text name => knownName known name
    | .object documents ending =>
        match depth with
        | 0 => .fail .malformed
        | _ + 1 => namedNull known ending documents
    | .flawed false cause _ => .fail cause
    | _ => .fail .malformed

end Reader

------------------------------------------------------------
-- Whole Texts
------------------------------------------------------------

/- The number of levels that a text may have. -/
def greatestDepth : Nat :=
  127

/- The value of a text. Nothing may follow it. -/
def decode
    {ω α : Type}
    [Codec]
    (reader : Nat → Reader ω α)
    (text : String) : Traced ω Fault α := do
  let source := Codec.parse text
  let value ← (reader greatestDepth).read source.document
  Reader.closed source.ending value

end Json

end PipelineScript
