import PipelineScript.Toml.Value

/-
  Records that are read from TOML values.

  A record is a table with its fields in any order, or an
  array of its fields in their own order. Whatever else is in
  it does not count.

  Key definitions include:
    * `Toml.Field`
    * `Toml.fillMembers?`
    * `Toml.fillItems?`
    * `Toml.fill?`
-/

namespace PipelineScript

namespace Toml

namespace Value

/- The content of a text. -/
def text? : Value → Option String
  | .text content => some content
  | _ => none

/- A truth value. -/
def boolean? : Value → Option Bool
  | .boolean flag => some flag
  | _ => none

/- The items of an array. -/
def items? : Value → Option (List Value)
  | .array items => some items
  | _ => none

end Value

/- A field that fills one place of a draft. -/
structure Field (σ : Type) where
  names : List String
  fill : Value → σ → Option σ

namespace Field

/- A field whose value goes through a function. -/
def place
    {σ β : Type}
    (names : List String)
    (put : β → σ → σ)
    (read? : Value → Option β) : Field σ where
  names := names
  fill := fun value draft => (read? value).map (put · draft)

end Field

variable {σ : Type}

/-
  Fill a draft from the members of a table. A field is filled
  only once, so it must not be there under two of its names.
-/
def fillMembers? :
    List (Field σ) → List (String × Value) → σ → Option σ
  | [], _, draft => some draft
  | field :: fields, members, draft =>
      match field.names.filterMap (members.lookup ·) with
      | [] => fillMembers? fields members draft
      | [value] =>
          (field.fill value draft).bind
            (fillMembers? fields members)
      | _ => none

/- Fill a draft from the items of an array. -/
def fillItems? :
    List (Field σ) → List Value → σ → Option σ
  | field :: fields, value :: rest, draft =>
      match field.fill value draft with
      | none => none
      | some filled => fillItems? fields rest filled
  | _, _, draft => some draft

/-
  Fill a draft from a value. A date or a time counts as a
  table that has none of the fields.
-/
def fill?
    (fields : List (Field σ))
    (empty : σ) : Value → Option σ
  | .table members => fillMembers? fields members empty
  | .array items => fillItems? fields items empty
  | .moment _ => some empty
  | _ => none

/- A value for every item of an array. -/
def list?
    {α : Type}
    (read? : Value → Option α)
    (value : Value) : Option (List α) :=
  value.items?.bind (·.mapM read?)

end Toml

end PipelineScript
