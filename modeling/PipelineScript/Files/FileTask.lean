import PipelineScript.Event
import PipelineScript.Files.FileTree

/-
  Tasks that read and write files.

  A task is a tree of requests: it asks for something to be
  done to a file and goes on with the answer. What answers it
  may be a tree of files, or the files of a computer.

  Key definitions include:
    * `FileTask`
    * `FileTask.bind`
    * `FileTask.readText`
    * `FileTask.writeText`
    * `FileTask.run`

  The main statement is that a task of several steps runs step
  by step: `FileTask.run_bind`.
-/

namespace PipelineScript

/- A task with a value at its end, or a failure. -/
inductive FileTask (α : Type) where
  | done (result : Traced Event Failure α)
  | read
      (path : String)
      (next : Except FileFault String → FileTask α)
  | write
      (path content : String)
      (next : Except FileFault Unit → FileTask α)
  | makeDirectories
      (path : String)
      (next : Except FileFault Unit → FileTask α)

namespace FileTask

variable {α β : Type}

------------------------------------------------------------
-- Putting Tasks Together
------------------------------------------------------------

/- The task with earlier events put in front. -/
def after (events : List Event) : FileTask α → FileTask α
  | .done result => .done (result.after events)
  | .read path next => .read path fun answer =>
      after events (next answer)
  | .write path content next => .write path content fun answer =>
      after events (next answer)
  | .makeDirectories path next =>
      .makeDirectories path fun answer =>
        after events (next answer)

/- Go on with the value of a task. -/
def bind
    (next : α → FileTask β) : FileTask α → FileTask β
  | .done result =>
      match result.outcome with
      | .ok value => (next value).after result.events
      | .error failure => .done ⟨result.events, .error failure⟩
  | .read path answered => .read path fun answer =>
      bind next (answered answer)
  | .write path content answered =>
      .write path content fun answer =>
        bind next (answered answer)
  | .makeDirectories path answered =>
      .makeDirectories path fun answer =>
        bind next (answered answer)

instance : Monad FileTask where
  pure := fun value => .done (.done value)
  bind := fun task next => task.bind next

/- A failure in place of a fault. -/
def orFail
    (failure : FileFault → Failure)
    (answer : Except FileFault α) : FileTask α :=
  .done ((Traced.ofExcept answer).mapError failure)

/- The text of a file. -/
def readText
    (path : String)
    (failure : FileFault → Failure) : FileTask String :=
  .read path (orFail failure)

/- Put a text into a file. -/
def writeText
    (path content : String)
    (failure : FileFault → Failure) : FileTask Unit :=
  .write path content (orFail failure)

/- Make the directories along a path. -/
def ensureDirectories
    (path : String)
    (failure : FileFault → Failure) : FileTask Unit :=
  .makeDirectories path (orFail failure)

------------------------------------------------------------
-- Running
------------------------------------------------------------

/- A task among the files of a tree, and the tree behind it. -/
def run :
    FileTask α → FileTree → Traced Event Failure α × FileTree
  | .done result, tree => (result, tree)
  | .read path next, tree => (next (tree.read path)).run tree
  | .write path content next, tree =>
      match tree.write path content with
      | .ok written => (next (.ok ())).run written
      | .error fault => (next (.error fault)).run tree
  | .makeDirectories path next, tree =>
      match tree.makeDirectories path with
      | .ok made => (next (.ok ())).run made
      | .error fault => (next (.error fault)).run tree

/- Earlier events change nothing about the files. -/
theorem run_after
    (events : List Event)
    (task : FileTask α)
    (tree : FileTree) :
    (task.after events).run tree =
      ((task.run tree).1.after events, (task.run tree).2) := by
  induction task generalizing tree with
  | done result => rfl
  | read path next ih =>
      simp only [after, run]
      exact ih (tree.read path) tree
  | write path content next ih =>
      simp only [after, run]
      cases tree.write path content with
      | ok written => exact ih (.ok ()) written
      | error fault => exact ih (.error fault) tree
  | makeDirectories path next ih =>
      simp only [after, run]
      cases tree.makeDirectories path with
      | ok made => exact ih (.ok ()) made
      | error fault => exact ih (.error fault) tree

/-
  A task of several steps runs step by step, each among the
  files that the step before it left.
-/
theorem run_bind
    (next : α → FileTask β)
    (task : FileTask α)
    (tree : FileTree) :
    (task.bind next).run tree =
      match (task.run tree).1.outcome with
      | .ok value =>
          (((next value).run (task.run tree).2).1.after
              (task.run tree).1.events,
            ((next value).run (task.run tree).2).2)
      | .error failure =>
          (⟨(task.run tree).1.events, .error failure⟩,
            (task.run tree).2) := by
  induction task generalizing tree with
  | done result =>
      simp only [bind, run]
      cases result.outcome with
      | ok value => exact run_after result.events _ tree
      | error failure => rfl
  | read path answered ih =>
      simp only [bind, run]
      exact ih (tree.read path) tree
  | write path content answered ih =>
      simp only [bind, run]
      cases tree.write path content with
      | ok written => exact ih (.ok ()) written
      | error fault => exact ih (.error fault) tree
  | makeDirectories path answered ih =>
      simp only [bind, run]
      cases tree.makeDirectories path with
      | ok made => exact ih (.ok ()) made
      | error fault => exact ih (.error fault) tree

end FileTask

end PipelineScript
