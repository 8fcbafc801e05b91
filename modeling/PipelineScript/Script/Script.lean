import PipelineScript.Graph.Graph
import PipelineScript.Import.ImportBlock
import PipelineScript.Script.NameTable
import PipelineScript.Settings.Settings

/-
  Scripts that were made from pipelines, and how they are laid
  out: remarks, imports, the entry routine, and its call.

  Key definitions include:
    * `Script`
    * `Layout.headerLines`
    * `Layout.lines`
-/

namespace PipelineScript

------------------------------------------------------------
-- Scripts
------------------------------------------------------------

/- Counts that tell what a script was made of. -/
structure Statistics where
  nodes : Nat
  sources : Nat
  sinks : Nat
  unhandled : Nat
  imports : Nat
deriving DecidableEq, Repr

/- A script with what is known of its making. -/
structure Script where
  pipelineId : Option String
  text : String
  imports : ImportBlock
  order : List NodeId
  names : List (NodeId × String)
  statistics : Statistics
deriving Repr

namespace Script

/- The name that a node has in the script. -/
def name?
    (script : Script)
    (id : NodeId) : Option String :=
  script.names.lookup id

/- The packages that the script imports. -/
def packages (script : Script) : List String :=
  script.imports.packages

/- The script has no nodes. -/
def isEmpty (script : Script) : Bool :=
  script.order.isEmpty

end Script

------------------------------------------------------------
-- Layout
------------------------------------------------------------

namespace Layout

/- A line of a remark as a comment. -/
def commentLine (line : String) : String :=
  if Text.isBlankText line then
    "#"
  else
    "# " ++ Literal.comment line

/- The remarks as comments, with an empty line behind them. -/
def headerLines (remarks : List String) : List String :=
  if remarks.isEmpty then
    []
  else
    remarks.flatMap (fun remark =>
        (Text.lines remark).map commentLine)
      ++ [""]

/- The imports, with an empty line behind them. -/
def importLines (imports : ImportBlock) : List String :=
  if imports.isEmpty then [] else imports.lines ++ [""]

/- A line inside the entry routine. -/
def bodyLine (indent line : String) : String :=
  if line.isEmpty then "" else indent ++ line

/- The choice of a device, with an empty line behind it. -/
def deviceLines (settings : Settings) : List String :=
  if settings.deviceSetup then
    [settings.indent ++ deviceSetup, ""]
  else
    []

/- The last statement of the entry routine. -/
def completionMessage : String :=
  "print('Pipeline execution complete.')"

/- The entry routine around the lines of all blocks. -/
def routineLines
    (settings : Settings)
    (body : List String) : List String :=
  ["def " ++ settings.entrypoint ++ "():"]
    ++ deviceLines settings
    ++ body.map (bodyLine settings.indent)
    ++ [settings.indent ++ completionMessage]

/- The call of the entry routine. -/
def callLines (settings : Settings) : List String :=
  ["", "", "if __name__ == '__main__':",
    settings.indent ++ settings.entrypoint ++ "()"]

/- All lines of a script. -/
def lines
    (settings : Settings)
    (remarks : List String)
    (imports : ImportBlock)
    (body : List String) : List String :=
  headerLines remarks
    ++ importLines imports
    ++ routineLines settings body
    ++ callLines settings

end Layout

end PipelineScript
