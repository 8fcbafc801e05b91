import PipelineScript.Description.NodeKind
import PipelineScript.Failure.Failure
import PipelineScript.Trace

/-
  What is reported while a task runs.

  Key definitions include:
    * `OptionKind`
    * `Event`
    * `Event.level`
    * `Event.message`
    * `Event.line`
-/

namespace PipelineScript

------------------------------------------------------------
-- Levels
------------------------------------------------------------

/- How much an event matters. -/
inductive Level where
  | warn
  | info
  | debug
deriving DecidableEq, Repr

namespace Level

/- The level in a word. -/
def name : Level → String
  | .warn => "WARN"
  | .info => "INFO"
  | .debug => "DEBUG"

end Level

------------------------------------------------------------
-- Events
------------------------------------------------------------

/- The kind of value that an option is expected to have. -/
inductive OptionKind where
  | text
  | boolean
  | integer
  | number
  | mapping
deriving DecidableEq, Repr

namespace OptionKind

/- The kind in words. -/
def name : OptionKind → String
  | .text => "a string"
  | .boolean => "a boolean"
  | .integer => "an integer"
  | .number => "a number"
  | .mapping => "a mapping"

end OptionKind

/- What can be reported. -/
inductive Event where
  | optionsIgnored (found : Json.Value)
  | optionMismatch
      (key : String)
      (expected : OptionKind)
      (found : Json.Value)
  | cropIgnored (found : Json.Value)
  | loaderInputsIgnored (node : NodeId) (count : Nat)
  | furtherInputsIgnored
      (node : NodeId)
      (input : String)
      (count : Nat)
  | placeholderUsed (tag : String) (node : NodeId)
  | generating (node : NodeId) (generator : String)
  | phaseChanged (before next : Phase)
  | assemblyFailed (error : CompileError)
  | compiled
      (pipelineId : Option String)
      (nodes imports : Nat)
  | torchNotImported
  | settingsLoaded (path : String)
  | settingsDefaulted (failure : Failure)
  | scriptWritten (path : String)
deriving Repr

namespace Event

/- How much an event matters. -/
def level : Event → Level
  | .optionsIgnored _ => .warn
  | .optionMismatch _ _ _ => .warn
  | .cropIgnored _ => .warn
  | .loaderInputsIgnored _ _ => .debug
  | .furtherInputsIgnored _ _ _ => .debug
  | .placeholderUsed _ _ => .warn
  | .generating _ _ => .debug
  | .phaseChanged _ _ => .debug
  | .assemblyFailed _ => .debug
  | .compiled _ _ _ => .info
  | .torchNotImported => .warn
  | .settingsLoaded _ => .debug
  | .settingsDefaulted _ => .warn
  | .scriptWritten _ => .info

/- A count in base ten. -/
private def countText (n : Nat) : String :=
  String.ofList (Number.natText n)

/- The event in words. -/
def message : Event → String
  | .optionsIgnored found =>
      "Node config is not a mapping (" ++ found.compact
        ++ "), ignoring it"
  | .optionMismatch key expected found =>
      "Config option '" ++ key ++ "' should be "
        ++ expected.name ++ ", found " ++ found.compact
        ++ "; using default"
  | .cropIgnored found =>
      "Ignoring crop option of unexpected shape: "
        ++ found.compact
  | .loaderInputsIgnored node count =>
      "DataLoader " ++ node.text ++ " ignores "
        ++ countText count ++ " upstream input(s)"
  | .furtherInputsIgnored node input count =>
      "ImageAugmentation " ++ node.text ++ " uses " ++ input
        ++ " and ignores " ++ countText count
        ++ " further input(s)"
  | .placeholderUsed tag node =>
      "No generator for node type '" ++ tag ++ "' (node "
        ++ node.text ++ "), emitting placeholder"
  | .generating node generator =>
      "Generating node " ++ node.text ++ " with " ++ generator
        ++ " generator"
  | .phaseChanged before next =>
      "Assembler: " ++ before.name ++ " -> " ++ next.name
  | .assemblyFailed error =>
      "Assembly failed: " ++ error.message
  | .compiled pipelineId nodes imports =>
      let name :=
        match pipelineId with
        | some id => " " ++ id
        | none => ""
      "Compiled pipeline" ++ name ++ ": " ++ countText nodes
        ++ " nodes, " ++ countText imports ++ " imports"
  | .torchNotImported =>
      "device_setup is enabled but 'torch' is not a default "
        ++ "import"
  | .settingsLoaded path =>
      "Loaded compiler config from " ++ Text.quotedPath path
  | .settingsDefaulted failure =>
      "Failed to load compiler config, using defaults: "
        ++ failure.display
  | .scriptWritten path => "Wrote " ++ path

/- The level and the words of an event. -/
def line (event : Event) : String :=
  event.level.name ++ " " ++ event.message

end Event

end PipelineScript
