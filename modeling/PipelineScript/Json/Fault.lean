import PipelineScript.Json.Printer
import PipelineScript.Text.Quoted

/-
  Why a JSON text could not be read.

  The text may end too early, it may not be JSON, or it may
  be JSON of another shape than was asked for.

  Key definitions include:
    * `Json.Found`
    * `Json.Mismatch`
    * `Json.Mismatch.message`
    * `Json.Fault`
-/

namespace PipelineScript

namespace Json

/- The kind of a value that was met, as far as it is told. -/
inductive Found where
  | null
  | boolean (value : Bool)
  | number (value : Number)
  | text (value : String)
  | sequence
  | map
deriving Repr, DecidableEq

namespace Found

/- The value that was met, in words. -/
def describe : Found → String
  | .null => "null"
  | .boolean true => "boolean `true`"
  | .boolean false => "boolean `false`"
  | .number (.integer value _) =>
      "integer `" ++ String.ofList (Number.intText value) ++ "`"
  | .number (.binary value) =>
      "floating point `"
        ++ String.ofList (numberLayout.render value) ++ "`"
  | .text value => "string " ++ Text.quoted value
  | .sequence => "sequence"
  | .map => "map"

end Found

/- How well-formed JSON differs from what was asked for. -/
inductive Mismatch where
  | wrongKind (found : Found) (expected : String)
  | missingField (name : String)
  | duplicateField (name : String)
  | wrongLength (length : Nat) (expected : String)
  | unknownVariant (name : String) (known : List String)
deriving Repr, DecidableEq

namespace Mismatch

/- The words of a mismatch. -/
def message : Mismatch → String
  | .wrongKind found expected =>
      "invalid type: " ++ found.describe
        ++ ", expected " ++ expected
  | .missingField name => "missing field `" ++ name ++ "`"
  | .duplicateField name => "duplicate field `" ++ name ++ "`"
  | .wrongLength length expected =>
      "invalid length "
        ++ String.ofList (Number.natText length)
        ++ ", expected " ++ expected
  | .unknownVariant name known =>
      "unknown variant `" ++ name ++ "`, expected one of "
        ++ ", ".intercalate
          (known.map fun other => "`" ++ other ++ "`")

end Mismatch

/- Why a JSON text could not be read. -/
inductive Fault where
  | endOfInput
  | malformed
  | mismatch (cause : Mismatch)
deriving Repr, DecidableEq

end Json

end PipelineScript
