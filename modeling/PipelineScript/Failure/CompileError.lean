import PipelineScript.Description.Id
import PipelineScript.Json.Record
import PipelineScript.Script.Phase

/-
  Why a pipeline cannot be made into a script.

  Key definitions include:
    * `SettingsProblem`
    * `Problem`
    * `CompileError`
    * `CompileError.message`
    * `ErrorKind`
    * `FailureReport`
-/

namespace PipelineScript

------------------------------------------------------------
-- Problems with Settings
------------------------------------------------------------

/- For what a system refuses to do something to a file. -/
inductive FileRefusal where
  | notFound
  | isDirectory
  | notDirectory
  | alreadyExists
deriving DecidableEq, Repr

/-
  Why a file cannot be read or written. A system tells what it
  refuses in its own words.
-/
inductive FileFault where
  | refused (refusal : FileRefusal) (words : String)
  | notText
  | other (words : String)
deriving DecidableEq, Repr

namespace FileFault

/- The fault in words. -/
def message : FileFault → String
  | .refused _ words => words
  | .notText => "stream did not contain valid UTF-8"
  | .other words => words

end FileFault

/-
  What is wrong with settings or with their file. A text that
  is no settings, and settings that give no text, are told in
  the words of the library that has to do with the format.
-/
inductive SettingsProblem where
  | badIndent (indent : String)
  | badEntrypoint (entrypoint : String)
  | unreadable (path : String) (fault : FileFault)
  | unparsable (path words : String)
  | noDirectory (fault : FileFault)
  | unprintable (words : String)
  | unwritable (path : String) (fault : FileFault)
  | stated (text : String)
deriving DecidableEq, Repr

namespace SettingsProblem

/- The problem in words. -/
def message : SettingsProblem → String
  | .badIndent indent =>
      "indent must be one or more spaces or tabs, got "
        ++ Text.quoted indent
  | .badEntrypoint entrypoint =>
      "entrypoint '" ++ entrypoint
        ++ "' is not a valid identifier"
  | .unreadable path fault =>
      "Failed to read config file " ++ Text.quotedPath path
        ++ ": " ++ fault.message
  | .unparsable path words =>
      "Failed to parse config file " ++ Text.quotedPath path
        ++ ": " ++ words
  | .noDirectory fault =>
      "Failed to create config directory: " ++ fault.message
  | .unprintable words => "Failed to serialize config: " ++ words
  | .unwritable path fault =>
      "Failed to write config file " ++ Text.quotedPath path
        ++ ": " ++ fault.message
  | .stated text => text

/- The problem as an error of its own. -/
def display (problem : SettingsProblem) : String :=
  "Configuration error: " ++ problem.message

end SettingsProblem

------------------------------------------------------------
-- Problems with Pipelines
------------------------------------------------------------

/- One end of a connection. -/
inductive Endpoint where
  | source
  | target
deriving DecidableEq, Repr

namespace Endpoint

/- The end in a word. -/
def name : Endpoint → String
  | .source => "source"
  | .target => "target"

end Endpoint

/- What is wrong with the structure of a pipeline. -/
inductive Problem where
  | danglingConnection
      (connection : ConnectionId)
      (endpoint : Endpoint)
      (node : NodeId)
  | reservedIdentifier (node : NodeId) (identifier : String)
  | alreadyNamed (node : NodeId) (identifier : String)
  | identifierClash
      (owner node : NodeId)
      (identifier : String)
  | visitedBeforeInput (node input : NodeId)
  | emptyModule
  | tooManyNodes
  | assemblerSpent (phase : Phase)
  | settings (problem : SettingsProblem)
  | stated (text : String)
deriving DecidableEq, Repr

namespace Problem

/- The problem in words. -/
def message : Problem → String
  | .danglingConnection connection endpoint node =>
      "Connection '" ++ connection.text
        ++ "' references unknown " ++ endpoint.name
        ++ " node '" ++ node.text ++ "'"
  | .reservedIdentifier node identifier =>
      "Node '" ++ node.text ++ "' maps to identifier '"
        ++ identifier
        ++ "', which generated code uses internally"
  | .alreadyNamed node identifier =>
      "Node '" ++ node.text ++ "' already has identifier '"
        ++ identifier ++ "'"
  | .identifierClash owner node identifier =>
      "Nodes '" ++ owner.text ++ "' and '" ++ node.text
        ++ "' both map to identifier '" ++ identifier ++ "'"
  | .visitedBeforeInput node input =>
      "Node '" ++ node.text
        ++ "' was visited before its input '"
        ++ input.text ++ "'"
  | .emptyModule => "Import directive has an empty module name"
  | .tooManyNodes => "Too many nodes in pipeline"
  | .assemblerSpent phase =>
      "Assembler already ran (state " ++ phase.name ++ ")"
  | .settings problem => problem.display
  | .stated text => text

end Problem

------------------------------------------------------------
-- Errors
------------------------------------------------------------

/- Why a pipeline cannot be made into a script. -/
inductive CompileError where
  | validation (problem : Problem)
  | cyclicGraph (waiting : List String)
  | importConflict (path existing requested : String)
  | unsupportedConfiguration (node key value : String)
deriving DecidableEq, Repr

/- The kinds of errors, for a caller to tell them apart. -/
inductive ErrorKind where
  | validation
  | cyclicGraph
  | importConflict
  | unsupportedConfiguration
deriving DecidableEq, Repr

namespace ErrorKind

/- The kind in a word. -/
def name : ErrorKind → String
  | .validation => "ValidationError"
  | .cyclicGraph => "CyclicGraphError"
  | .importConflict => "ImportConflictError"
  | .unsupportedConfiguration => "UnsupportedConfigurationError"

/- All kinds in their order. -/
def all : List ErrorKind :=
  [.validation, .cyclicGraph, .importConflict,
    .unsupportedConfiguration]

end ErrorKind

namespace CompileError

/- The kind of an error. -/
def kind : CompileError → ErrorKind
  | .validation _ => .validation
  | .cyclicGraph _ => .cyclicGraph
  | .importConflict _ _ _ => .importConflict
  | .unsupportedConfiguration _ _ _ => .unsupportedConfiguration

/- The error in words. -/
def message : CompileError → String
  | .validation problem =>
      "Validation error: " ++ problem.message
  | .cyclicGraph waiting =>
      "Cycle detected in pipeline graph; "
        ++ "nodes still waiting on inputs: "
        ++ ", ".intercalate waiting
  | .importConflict path existing requested =>
      "Import conflict for '" ++ path
        ++ "': already imported as " ++ existing
        ++ ", requested as " ++ requested
  | .unsupportedConfiguration node key value =>
      "Node '" ++ node ++ "' has unsupported " ++ key
        ++ " '" ++ value ++ "'"

end CompileError

------------------------------------------------------------
-- Reports
------------------------------------------------------------

/- An error as it is handed to another program. -/
structure FailureReport where
  kind : ErrorKind
  message : String
deriving DecidableEq, Repr

namespace FailureReport

/- The report of an error. -/
def ofError (error : CompileError) : FailureReport where
  kind := error.kind
  message := error.message

/- The report as JSON. -/
def toJson (report : FailureReport) : Json.Value :=
  .object
    [("kind", .text report.kind.name),
      ("message", .text report.message)]

/- What was read of a report. -/
structure Draft where
  kind : Option ErrorKind
  message : Option String

/- How a report is read. -/
def record
    {ω : Type} : Json.Record ω Draft FailureReport where
  name := "CompileFailure"
  fields :=
    [.place "kind" [] Draft.kind
        (fun kind draft => { draft with kind := some kind })
        (Json.Reader.variant
          (ErrorKind.all.map fun kind => (kind.name, kind))),
      .place "message" [] Draft.message
        (fun message draft =>
          { draft with message := some message })
        (fun _ => Json.Reader.text)]
  empty := ⟨none, none⟩
  complete := fun draft =>
    match draft.kind, draft.message with
    | none, _ => .error "kind"
    | _, none => .error "message"
    | some kind, some message => .ok ⟨kind, message⟩

end FailureReport

end PipelineScript
