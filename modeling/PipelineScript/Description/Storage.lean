import PipelineScript.Description.Description
import PipelineScript.Files.FileTask

/-
  Descriptions in files.

  Key definitions include:
    * `Description.load`
-/

namespace PipelineScript

namespace Description

/- The failure to read a description. -/
def unreadable (path : String) (fault : FileFault) : Failure :=
  .within ("Failed to read pipeline description " ++ path)
    (.file fault)

/- The failure to understand a description. -/
def undecodable
    [Json.Codec]
    (path text : String)
    (fault : Json.Fault) : Failure :=
  .within ("Failed to parse pipeline description " ++ path)
    (.decoding (Json.Codec.refusal record.name text fault))

/- The description in the file at a path. -/
def load [Json.Codec] (path : String) : FileTask Description := do
  let text ← FileTask.readText path (unreadable path)
  .done ((decode text).mapError (undecodable path text))

end Description

end PipelineScript
