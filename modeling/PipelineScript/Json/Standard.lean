import PipelineScript.Json.Parser

/-
  The library that the program runs with: it follows the JSON
  format, and it says what was wrong with a text but not where.

  Key definitions include:
    * `Json.Fault.message`
    * `Json.standardCodec`
-/

namespace PipelineScript

namespace Json

/- A fault in words. -/
def Fault.message : Fault → String
  | .endOfInput => "the text ends too early"
  | .malformed => "the text is not JSON"
  | .mismatch cause => cause.message

instance standardCodec : Codec where
  parse := parse
  print := fun value => .ok value.pretty
  refusal := fun _ _ fault => fault.message

end Json

end PipelineScript
