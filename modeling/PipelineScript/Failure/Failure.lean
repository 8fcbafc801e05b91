import PipelineScript.Failure.CompileError

/-
  Why a whole task failed: the compiling itself, the settings,
  a file, or a document. A failure can be given a context that
  says what was being done.

  Key definitions include:
    * `Failure`
    * `Failure.display`
    * `Failure.compileError?`
    * `Failure.chain`
-/

namespace PipelineScript

/-
  Why a task failed. What could not be decoded is told in the
  words of the decoder.
-/
inductive Failure where
  | compile (error : CompileError)
  | settings (problem : SettingsProblem)
  | file (fault : FileFault)
  | decoding (words : String)
  | within (context : String) (source : Failure)
deriving DecidableEq, Repr

namespace Failure

/- The failure in words, the outermost context first. -/
def display : Failure → String
  | .compile error => "Compile error: " ++ error.message
  | .settings problem => problem.display
  | .file fault => "IO error: " ++ fault.message
  | .decoding words => "Serialization error: " ++ words
  | .within context source => context ++ ": " ++ source.display

/- The compile error at the root of a failure. -/
def compileError? : Failure → Option CompileError
  | .compile error => some error
  | .within _ source => source.compileError?
  | _ => none

/- The kind of the compile error at the root. -/
def kind? (failure : Failure) : Option ErrorKind :=
  failure.compileError?.map CompileError.kind

/- What the failure came from, step by step. -/
def chain : Failure → List String
  | .compile error => [error.message]
  | .file fault => [fault.message]
  | .within _ source => source.display :: source.chain
  | .settings _ | .decoding _ => []

/- The failure inside several contexts, the first innermost. -/
def withinAll
    (failure : Failure)
    (contexts : List String) : Failure :=
  contexts.foldl (fun inner context => .within context inner)
    failure

end Failure

end PipelineScript
