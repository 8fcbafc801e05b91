import PipelineScript.Json.Containers

/-
  Readers of records, whose fields have names.

  A record is an object with its fields in any order, or an
  array of its fields in their own order. Members of an
  object that are no fields are passed over.

  Key definitions include:
    * `Json.Field`
    * `Json.Record`
    * `Json.Record.reader`
-/

namespace PipelineScript

namespace Json

------------------------------------------------------------
-- Fields
------------------------------------------------------------

/-
  A field of a record that is being read into a draft. It
  can have other names, but it can be filled only once.
-/
structure Field (ω σ : Type) where
  name : String
  otherNames : List String
  isFilled : σ → Bool
  fill : (depth : Nat) → Reader ω (σ → σ)

namespace Field

/- The key is a name of the field. -/
def isNamed
    {ω σ : Type}
    (key : String)
    (field : Field ω σ) : Bool :=
  key == field.name || field.otherNames.contains key

/- A field that fills one place of a draft with one value. -/
def place
    {ω σ β : Type}
    (name : String)
    (otherNames : List String)
    (content : σ → Option β)
    (put : β → σ → σ)
    (reader : (depth : Nat) → Reader ω β) : Field ω σ where
  name := name
  otherNames := otherNames
  isFilled := fun draft => (content draft).isSome
  fill := fun depth => (reader depth).map put

end Field

/-
  How a record is read: its fields fill an empty draft, and a
  filled draft is the record unless a field is missing.
-/
structure Record (ω σ α : Type) where
  name : String
  fields : List (Field ω σ)
  empty : σ
  complete : σ → Except String α

namespace Record

variable {ω σ α : Type}

open Reader

/- The record in words. -/
def describe (record : Record ω σ α) : String :=
  "struct " ++ record.name

------------------------------------------------------------
-- Records as Objects
------------------------------------------------------------

/- Put the value under a key into the draft. -/
def fillMember
    (record : Record ω σ α)
    (depth : Nat)
    (draft : σ)
    (key : String) : Reader ω σ :=
  match record.fields.find? (Field.isNamed key) with
  | some field =>
      if field.isFilled draft then
        .fault (.mismatch (.duplicateField field.name))
      else
        (field.fill depth).map fun fill => fill draft
  | none => ignored.map fun _ => draft

/- The record of a filled draft, where all members were read. -/
def completeObject
    (record : Record ω σ α)
    (draft : σ) : Except Fault α :=
  match record.complete draft with
  | .ok value => .ok value
  | .error name => .error (.mismatch (.missingField name))

------------------------------------------------------------
-- Records as Arrays
------------------------------------------------------------

/-
  The record of a filled draft, where the array ended. The
  fault tells how many fields stand before the missing one.
-/
def completeArray
    (record : Record ω σ α)
    (draft : σ) : Except Fault α :=
  match record.complete draft with
  | .ok value => .ok value
  | .error name =>
      .error (.mismatch (.wrongLength
        (record.fields.findIdx (·.name == name))
        (record.describe ++ " with "
          ++ String.ofList
            (Number.natText record.fields.length)
          ++ " elements")))

/-
  The fields of an array in their own order. The last ones may
  be left out, but nothing may follow the last one.
-/
def fillItems
    (depth : Nat)
    (ending : Option Fault) :
    List (Field ω σ) → List Document → σ → Traced ω Fault σ
  | _, [], draft => closed ending draft
  | [], _ :: _, _ => .fail .malformed
  | field :: fields, document :: rest, draft => do
      let fill ← (field.fill depth).read document
      fillItems depth ending fields rest (fill draft)

------------------------------------------------------------
-- Both Forms
------------------------------------------------------------

/- The reader of a record, in either form. -/
def reader
    (record : Record ω σ α)
    (depth : Nat) : Reader ω α where
  read
    | .array documents ending =>
        match depth with
        | 0 => .fail .malformed
        | depth + 1 => do
            let draft ←
              fillItems depth ending record.fields documents
                record.empty
            .ofExcept (record.completeArray draft)
    | .object documents ending =>
        match depth with
        | 0 => .fail .malformed
        | depth + 1 => do
            let draft ←
              members (record.fillMember depth) ending documents
                record.empty
            .ofExcept (record.completeObject draft)
    | other => .fail (other.mismatch record.describe)

end Record

end Json

end PipelineScript
