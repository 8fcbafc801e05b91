import PipelineScript.Files.FileTask
import PipelineScript.Script.Script

/-
  Scripts in files.

  Key definitions include:
    * `Script.save`
-/

namespace PipelineScript

namespace Script

/- The failure to write a script. -/
def unwritable (path : String) (fault : FileFault) : Failure :=
  .within ("Failed to write script to " ++ path) (.file fault)

/- Put the script into the file at a path. -/
def save (script : Script) (path : String) : FileTask Unit :=
  FileTask.writeText path script.text (unwritable path)

end Script

end PipelineScript
