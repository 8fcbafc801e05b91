import PipelineScript.Failure.CompileError
import PipelineScript.Import.Directive
import PipelineScript.Table
import PipelineScript.Text.Lines

/-
  The imports of a script: one request for every module, in
  the order in which modules were first requested.

  Asking for a module again changes nothing if the request is
  the same, and is a conflict if it is any other.

  Key definitions include:
    * `ImportBlock`
    * `ImportBlock.ask`
    * `ImportBlock.extend`
    * `ImportBlock.addAll`
    * `ImportBlock.merge`
    * `ImportBlock.packages`
-/

namespace PipelineScript

/-
  Requests in order, each of them under the path of the module
  that it is for.
-/
structure ImportBlock where
  entries : Table String Directive
  keyed : ∀ entry ∈ entries.entries, entry.1 = entry.2.path
deriving DecidableEq, Repr

namespace ImportBlock

/- No requests. -/
def empty : ImportBlock where
  entries := .empty
  keyed := by simp [Table.empty]

/- The requests in order, with one for every module. -/
def directives (imports : ImportBlock) : List Directive :=
  imports.entries.values

/- How many modules are requested. -/
def size (imports : ImportBlock) : Nat :=
  imports.entries.size

/- No module is requested. -/
def isEmpty (imports : ImportBlock) : Bool :=
  imports.entries.isEmpty

/- The request that is kept for a path. -/
def find?
    (imports : ImportBlock)
    (path : String) : Option Directive :=
  imports.entries.get? path

/- The request for a module, however its path is written. -/
def get?
    (imports : ImportBlock)
    (path : String) : Option Directive :=
  imports.find? (Directive.normalizedPath path)

------------------------------------------------------------
-- Adding
------------------------------------------------------------

/- The conflict between a request that is kept and another. -/
def conflict (existing requested : Directive) : CompileError :=
  .importConflict requested.path
    ("'" ++ existing.render ++ "'")
    ("'" ++ requested.render ++ "'")

/- Put a request under its path. -/
def put
    (imports : ImportBlock)
    (directive : Directive) : ImportBlock where
  entries := imports.entries.insert directive.path directive
  keyed := by
    intro entry hEntry
    rcases Entries.mem_of_mem_put hEntry with rfl | hEntry
    · rfl
    · exact imports.keyed entry hEntry

/- Ask for a request that is in its normal form. -/
def askNormal
    (imports : ImportBlock)
    (directive : Directive) :
    ImportBlock × Except CompileError Unit :=
  if directive.path.isEmpty then
    (imports, .error (.validation .emptyModule))
  else
    match imports.find? directive.path with
    | none => (imports.put directive, .ok ())
    | some existing =>
        if existing = directive then
          (imports, .ok ())
        else
          (imports, .error (conflict existing directive))

/-
  Ask for a request. What is left of the block when it cannot
  be added is part of the answer.
-/
def ask
    (imports : ImportBlock)
    (directive : Directive) :
    ImportBlock × Except CompileError Unit :=
  imports.askNormal directive.normalized

/- The block behind a request that can be added. -/
def add
    (imports : ImportBlock)
    (directive : Directive) : Except CompileError ImportBlock :=
  match imports.ask directive with
  | (next, .ok ()) => .ok next
  | (_, .error error) => .error error

/-
  Ask for one request after the other, up to one that cannot
  be added.
-/
def extend
    (imports : ImportBlock) :
    List Directive → ImportBlock × Except CompileError Unit
  | [] => (imports, .ok ())
  | directive :: rest =>
      match imports.ask directive with
      | (next, .ok ()) => next.extend rest
      | (next, .error error) => (next, .error error)

/- Add requests one after the other, or none of them. -/
def addAll
    (imports : ImportBlock)
    (directives : List Directive) :
    Except CompileError ImportBlock :=
  match imports.extend directives with
  | (extended, .ok ()) => .ok extended
  | (_, .error error) => .error error

/- The imports that requests make by themselves. -/
def ofDirectives
    (directives : List Directive) :
    Except CompileError ImportBlock :=
  empty.addAll directives

/- All imports of both, those of the first in front. -/
def merge
    (imports other : ImportBlock) :
    Except CompileError ImportBlock :=
  imports.addAll other.directives

------------------------------------------------------------
-- Comparing and Writing
------------------------------------------------------------

/- The same requests, in whatever order. -/
def sameDirectives (imports other : ImportBlock) : Bool :=
  imports.size == other.size
    && imports.directives.all fun directive =>
      other.find? directive.path == some directive

/- The statements, one for every module. -/
def lines (imports : ImportBlock) : List String :=
  imports.directives.map Directive.render

/- The statements as text. -/
def render (imports : ImportBlock) : String :=
  Text.unlines imports.lines

/- Texts without those that came before. -/
def distinct (texts : List String) : List String :=
  texts.foldl
    (fun kept text =>
      if kept.contains text then kept else kept ++ [text])
    []

/- The packages of the modules, in order of their first. -/
def packages (imports : ImportBlock) : List String :=
  distinct (imports.directives.map Directive.package)

end ImportBlock

end PipelineScript
