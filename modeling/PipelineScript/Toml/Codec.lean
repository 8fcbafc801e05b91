import PipelineScript.Toml.Value

/-
  What is used of a library that reads and writes TOML.

  Key definitions include:
    * `Toml.Codec`
-/

namespace PipelineScript

namespace Toml

/-
  A library that reads and writes TOML: it parses a text into
  the members of a table, and prints a table. It has its own
  words for a text that is refused where a record was asked
  for, and for a table that is not printed.
-/
class Codec where
  parse : (text : String) → Option (List (String × Value))
  print : (members : List (String × Value)) → Except String String
  refusal : (record text : String) → String

end Toml

end PipelineScript
