import PipelineScript.Json.Document
import PipelineScript.Trace

/-
  Readers of JSON documents.

  A document is read from its front to its end, and the first
  fault wins. Reading may leave events.

  Key definitions include:
    * `Json.Reader`
    * `Json.Reader.items`
    * `Json.Reader.members`
    * `Json.Reader.option`
    * `Json.Reader.value`
    * `Json.Reader.ignored`
-/

namespace PipelineScript

namespace Json

------------------------------------------------------------
-- Readers
------------------------------------------------------------

/- A way to read a value from a document. -/
structure Reader (ω α : Type) where
  read : Document → Traced ω Fault α

namespace Reader

variable {ω α β σ : Type}

/- The reader that always fails. -/
def fault (cause : Fault) : Reader ω α where
  read := fun _ => .fail cause

/- The reader whose value goes through a function. -/
def map
    (f : α → β)
    (reader : Reader ω α) : Reader ω β where
  read := fun document => do
    let value ← reader.read document
    return f value

/- The reader that also leaves the events of its value. -/
def noting
    (remarks : α → List ω)
    (reader : Reader ω α) : Reader ω α where
  read := fun document => do
    let value ← reader.read document
    ⟨remarks value, .ok value⟩

------------------------------------------------------------
-- Parts of Containers
------------------------------------------------------------

/- A value, unless there is a fault where it should end. -/
def closed
    (ending : Option Fault)
    (value : α) : Traced ω Fault α :=
  match ending with
  | none => .done value
  | some cause => .fail cause

/- The values of items, one after the other. -/
def items
    (item : Reader ω α)
    (ending : Option Fault) :
    List Document → Traced ω Fault (List α)
  | [] => closed ending []
  | document :: rest => do
      let value ← item.read document
      let values ← items item ending rest
      return value :: values

/-
  The state behind members. Every key says how the state is
  changed by the document under it.
-/
def members
    (member : σ → String → Reader ω σ)
    (ending : Option Fault) :
    List (Except Fault String × Document) →
      σ → Traced ω Fault σ
  | [], state => closed ending state
  | (.error cause, _) :: _, _ => .fail cause
  | (.ok key, document) :: rest, state => do
      let next ← (member state key).read document
      members member ending rest next

------------------------------------------------------------
-- Scalars
------------------------------------------------------------

/- A text. -/
def text : Reader ω String where
  read
    | .text value => .done value
    | other => .fail (other.mismatch "a string")

/- `true` or `false`. -/
def boolean : Reader ω Bool where
  read
    | .boolean value => .done value
    | other => .fail (other.mismatch "a boolean")

/- `null`, where nothing is told. -/
def unit : Reader ω Unit where
  read
    | .null => .done ()
    | other => .fail (other.mismatch "unit")

/- A number with its written kind. -/
def number : Reader ω Number where
  read
    | .number value => .done value
    | other => .fail (other.mismatch "a JSON number")

/- `null` for nothing, or a value. -/
def option (reader : Reader ω α) : Reader ω (Option α) where
  read
    | .null => .done none
    | other => (reader.map some).read other

------------------------------------------------------------
-- Values of Any Shape
------------------------------------------------------------

/-
  A value of any shape, given a reader for the values inside
  it. Without one, the value must not be a container. A key
  that comes again keeps its first place and takes its last
  value.
-/
def valueAround
    (inner : Option (Reader ω Value)) : Reader ω Value where
  read
    | .null => .done .null
    | .boolean value => .done (.boolean value)
    | .number value => .done (.number value)
    | .text value => .done (.text value)
    | .flawed _ cause _ => .fail cause
    | .array documents ending =>
        match inner with
        | none => .fail .malformed
        | some inner => do
            let values ← items inner ending documents
            return .array values
    | .object documents ending =>
        match inner with
        | none => .fail .malformed
        | some inner => do
            let entries ←
              members
                (fun entries key =>
                  inner.map fun value =>
                    Entries.put key value entries)
                ending documents []
            return .object entries

/- A value with at most the given number of levels. -/
def value : (depth : Nat) → Reader ω Value
  | 0 => valueAround none
  | depth + 1 => valueAround (some (value depth))

/- What is passed over, whatever its shape and its depth. -/
def ignored : Reader ω Unit where
  read := fun document => closed document.passingFault? ()

end Reader

end Json

end PipelineScript
