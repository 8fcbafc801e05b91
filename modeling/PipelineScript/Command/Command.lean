import PipelineScript.Description.Storage
import PipelineScript.Script.Compiler
import PipelineScript.Script.Storage
import PipelineScript.Settings.Storage

/-
  What the program can be told to do.

  A command reads its files, compiles, and has a text to be
  printed at its end. The settings are read first.

  What the compiler refuses to put in order is handed on as its
  error alone. What it refuses to compile is a failure, like a
  file that cannot be used, with a context around it.

  Key definitions include:
    * `Command`
    * `Command.task`
    * `Command.complaint`
    * `Command.outcome`
    * `Command.endIn`
-/

namespace PipelineScript

/- What the program is told to do, and with which files. -/
inductive Command where
  | compile
      (file : String)
      (settings output : Option String)
      (isStrict : Bool)
  | validate (file : String)
  | packages (file : String) (settings : Option String)
deriving DecidableEq, Repr

namespace Command

variable [Json.Codec] [Toml.Codec]

------------------------------------------------------------
-- Steps
------------------------------------------------------------

/- The settings in a file, or the standard ones without it. -/
def settingsOf : Option String → FileTask Settings
  | none => return .standard
  | some path => Settings.load path

/- The script for the description in a file. -/
def scriptOf
    (settings : Settings)
    (file : String) : FileTask Script := do
  let description ← Description.load file
  .done
    (((Compiler.ofSettings settings).compile description).mapError
      fun error =>
        .within ("Failed to compile " ++ file) (.compile error))

/-
  The order of the nodes of the description in a file, or the
  error of the compiler without anything around it.
-/
def orderOf
    (file : String) :
    FileTask (Except CompileError (List NodeId)) := do
  let description ← Description.load file
  return (Compiler.ofSettings .standard).validate description

/- The nodes on lines of their own, counted from one. -/
def numbered (ids : List NodeId) : List String :=
  ids.mapIdx fun place id =>
    String.ofList (Number.natText (place + 1)) ++ ". " ++ id.text

/- Print the script, or put it into a file. -/
def deliver
    (script : Script) : Option String → FileTask String
  | none => return script.text
  | some path => do
      script.save path
      FileTask.done (.emit (.scriptWritten path))
      return ""

------------------------------------------------------------
-- Commands
------------------------------------------------------------

/-
  The work of a command, with what is printed at its end or
  the error of the compiler that has nothing around it.
-/
def task : Command → FileTask (Except CompileError String)
  | .compile file settings output isStrict => do
      let settings ← settingsOf settings
      let script ←
        scriptOf
          { settings with
            strictModels := settings.strictModels || isStrict }
          file
      return .ok (← deliver script output)
  | .validate file => do
      let order ← orderOf file
      return order.map fun ids => Text.unlines (numbered ids)
  | .packages file settings => do
      let script ← scriptOf (← settingsOf settings) file
      return .ok (Text.unlines script.packages)

------------------------------------------------------------
-- Outcomes
------------------------------------------------------------

/- An error of the compiler on a line, behind its kind. -/
def refusal (error : CompileError) : String :=
  "error[" ++ error.kind.name ++ "]: " ++ error.message

/-
  A failure on a line: the error of the compiler that it comes
  from if there is one, and otherwise all that is known of it.
-/
def complaint (failure : Failure) : String :=
  match failure.compileError? with
  | some error => refusal error
  | none => "error: " ++ failure.display

/- How a run of the program ends. -/
structure Outcome where
  status : Nat
  printed : String
  complaints : String
deriving DecidableEq, Repr

/- How the program ends behind the work of a command. -/
def outcome
    (result : Except Failure (Except CompileError String)) :
    Outcome :=
  match result with
  | .ok (.ok printed) => ⟨0, printed, ""⟩
  | .ok (.error error) => ⟨1, "", refusal error ++ "\n"⟩
  | .error failure => ⟨1, "", complaint failure ++ "\n"⟩

/-
  How a command ends among the files of a tree, and the tree
  behind it.
-/
def endIn
    (command : Command)
    (tree : FileTree) : Outcome × FileTree :=
  let (result, after) := command.task.run tree
  (outcome result.outcome, after)

end Command

end PipelineScript
