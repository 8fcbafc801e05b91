import PipelineScript.Number.Exact
import PipelineScript.Table

/-
  JSON values with the members of objects in order.

  Key definitions include:
    * `Json.Value`
    * `Json.Value.isNull`
    * `Json.Value.member?`
-/

namespace PipelineScript

namespace Json

/-
  A JSON value. Numbers keep their written kind, and the
  members of an object their order.
-/
inductive Value where
  | null
  | boolean (value : Bool)
  | number (value : Number)
  | text (value : String)
  | array (items : List Value)
  | object (members : List (String × Value))
deriving Repr

namespace Value

instance : Inhabited Value :=
  ⟨.null⟩

/- The value is `null`. -/
def isNull : Value → Bool
  | .null => true
  | _ => false

/- The member of an object under a key. -/
def member?
    (key : String) : Value → Option Value
  | .object members => members.lookup key
  | _ => none

end Value

end Json

end PipelineScript
