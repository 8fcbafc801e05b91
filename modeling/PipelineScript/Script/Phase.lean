/-
  The phases of putting a script together.

  Key definitions include:
    * `Phase`
    * `Phase.isTerminal`
    * `Phase.name`
-/

namespace PipelineScript

/- How far the making of a script has come. -/
inductive Phase where
  | initialized
  | graphBuilt
  | sorted
  | generating
  | assembled
  | failed
deriving DecidableEq, Repr

namespace Phase

/- Nothing follows the phase. -/
def isTerminal : Phase → Bool
  | .assembled | .failed => true
  | _ => false

/- The phase in a word. -/
def name : Phase → String
  | .initialized => "Initialized"
  | .graphBuilt => "GraphBuilt"
  | .sorted => "Sorted"
  | .generating => "Generating"
  | .assembled => "Assembled"
  | .failed => "Failed"

end Phase

end PipelineScript
