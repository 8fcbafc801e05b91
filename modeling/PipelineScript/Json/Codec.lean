import PipelineScript.Json.Document

/-
  What is used of a library that reads and writes JSON.

  Key definitions include:
    * `Json.Source`
    * `Json.Codec`
-/

namespace PipelineScript

namespace Json

/- What a whole text shows, and the fault of what follows. -/
structure Source where
  document : Document
  ending : Option Fault

namespace Source

/- A text that shows a value, with nothing behind it. -/
def ofValue (value : Value) : Source where
  document := .ofValue value
  ending := none

end Source

/-
  A library that reads and writes JSON: it parses a text, and
  prints a value on lines of its own. It has its own words for
  a text that is refused where a record was asked for, and for
  a value that is not printed.
-/
class Codec where
  parse : (text : String) → Source
  print : (value : Value) → Except String String
  refusal : (record text : String) → (fault : Fault) → String

end Json

end PipelineScript
