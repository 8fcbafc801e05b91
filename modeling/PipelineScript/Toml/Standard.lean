import PipelineScript.Toml.Codec
import PipelineScript.Toml.Outline
import PipelineScript.Toml.Parser

/-
  The library that the program runs with: it reads the TOML
  format, and it writes tables of texts, truth values and lists
  of tables.

  Key definitions include:
    * `Toml.standardCodec`
-/

namespace PipelineScript

namespace Toml

/- The text of a table, if it can be shown. -/
def print (members : List (String × Value)) : Except String String :=
  match Outline.ofMembers? members with
  | some outline => .ok (Text.unlines outline.lines)
  | none => .error "the table has values that are not written"

instance standardCodec : Codec where
  parse := read?
  print := print
  refusal := fun record _ => "the text is not a " ++ record

end Toml

end PipelineScript
