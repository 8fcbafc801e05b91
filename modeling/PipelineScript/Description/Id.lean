import PipelineScript.Number.Layout
import PipelineScript.Text.Quoted

/-
  The names of nodes, connections and ports, and the places
  of nodes in a graph.

  Key definitions include:
    * `NodeId`
    * `ConnectionId`
    * `SlotId`
    * `NodeIndex.describe`
-/

namespace PipelineScript

/- The key of a node, chosen by the author of a pipeline. -/
structure NodeId where
  text : String
deriving DecidableEq, Repr

namespace NodeId

/- The key as it is shown to a developer. -/
def describe (id : NodeId) : String :=
  "NodeId(" ++ Text.quoted id.text ++ ")"

end NodeId

/- The key of a connection. -/
structure ConnectionId where
  text : String
deriving DecidableEq, Repr

namespace ConnectionId

/- The key as it is shown to a developer. -/
def describe (id : ConnectionId) : String :=
  "ConnectionId(" ++ Text.quoted id.text ++ ")"

end ConnectionId

/- The name of a slot of a node, which may be empty. -/
structure SlotId where
  text : String
deriving DecidableEq, Repr

namespace NodeIndex

/- The number that is never the place of a node. -/
def invalid : Nat :=
  4294967295

/- A place as it is shown to a developer. -/
def describe (index : Nat) : String :=
  if index == invalid then
    "NodeIndex(INVALID)"
  else
    "NodeIndex(" ++ String.ofList (Number.natText index) ++ ")"

end NodeIndex

end PipelineScript
