import PipelineScript.Command.Arguments
import PipelineScript.Json.Standard
import PipelineScript.Toml.Standard

/-
  The program: it runs a command among the files of the
  computer.

  Key definitions include:
    * `FileTask.perform`
    * `main`
-/

namespace PipelineScript

------------------------------------------------------------
-- Files
------------------------------------------------------------

namespace FileFault

/- What is refused under a number of the computer. -/
def refusalOf? (code : UInt32) : Option FileRefusal :=
  match code.toNat with
  | 2 => some .notFound
  | 17 => some .alreadyExists
  | 20 => some .notDirectory
  | 21 => some .isDirectory
  | _ => none

/- What is refused by an error of the computer. -/
def refusalOfError? (error : IO.Error) : Option FileRefusal :=
  match error with
  | .noFileOrDirectory _ _ _ => some .notFound
  | .inappropriateType _ code _ => refusalOf? code
  | .alreadyExists _ code _ => refusalOf? code
  | _ => none

/- The fault behind an error of the computer. -/
def ofError (error : IO.Error) : FileFault :=
  match refusalOfError? error with
  | some refusal => .refused refusal refusal.words
  | none => .other (toString error)

end FileFault

namespace FileTask

/- What comes of an action on a file. -/
def attempt
    {α : Type}
    (action : IO α) : IO (Except FileFault α) := do
  try
    return .ok (← action)
  catch error =>
    return .error (.ofError error)

/- The text of a file of the computer. -/
def textOfFile (path : String) : IO (Except FileFault String) := do
  match ← attempt ( IO.FS.readBinFile path) with
  | .error fault => return .error fault
  | .ok bytes =>
      match String.fromUTF8? bytes with
      | some text => return .ok text
      | none => return .error .notText

/- A task among the files of the computer. -/
def perform
    {α : Type} :
    FileTask α → IO (Traced Event Failure α)
  | .done result => return result
  | .read path next => do
      (next (← textOfFile path)).perform
  | .write path content next => do
      (next (← attempt ( IO.FS.writeFile path content))).perform
  | .makeDirectories path next => do
      (next (← attempt ( IO.FS.createDirAll path))).perform

end FileTask

------------------------------------------------------------
-- Running
------------------------------------------------------------

namespace Command

/- What is worth telling beside the outcome. -/
def isTold (event : Event) : Bool :=
  event.level != .debug

/- Run a command, and tell what happened on the way. -/
def perform (command : Command) : IO Outcome := do
  let result ← command.task.perform
  for event in result.events do
    if isTold event then
      IO.eprintln event.line
  return outcome result.outcome

/- Run what a command line says. -/
def performLine (arguments : List String) : IO Outcome :=
  match parse arguments with
  | .ok command => command.perform
  | .error stop => return outcomeOfStop stop

end Command

end PipelineScript

/- The program. -/
def main (arguments : List String) : IO UInt32 := do
  let outcome ← PipelineScript.Command.performLine arguments
  IO.print outcome.printed
  IO.eprint outcome.complaints
  return outcome.status.toUInt32
