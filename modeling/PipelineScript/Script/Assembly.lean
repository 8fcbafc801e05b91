import PipelineScript.Script.Registry
import PipelineScript.Script.Script

/-
  Putting a script together: the graph is built and ordered,
  every node becomes a block, and the imports of all blocks
  are merged.

  Nodes come in order, so that a name is given before it is
  used. Nothing is changed once it was made.

  The work goes through phases, and an assembler stays in the
  one that it was in last, whether or not a script was made.

  Key definitions include:
    * `Assembly.Progress`
    * `Assembly.visit`
    * `Assembly.visitAll`
    * `Assembly.Staged`
    * `Assembly.transition`
    * `Assembly.run`
    * `Assembler.assemble`
-/

namespace PipelineScript

namespace Assembly

------------------------------------------------------------
-- Visiting Nodes
------------------------------------------------------------

/- What was made of the nodes that were visited. -/
structure Progress where
  body : List String
  imports : ImportBlock
  names : NameTable
  unhandled : Nat
deriving Repr

/- The name that the node in a place puts its output under. -/
def inputName
    (graph : Graph)
    (names : NameTable)
    (node : Node)
    (place : Nat) : Except CompileError String :=
  match names.get? place with
  | some name => .ok name
  | none =>
      let input :=
        match graph.nodes[place]? with
        | some input => input.id
        | none => ⟨""⟩
      .error (.validation (.visitedBeforeInput node.id input))

/- The names of all inputs of a node, edge by edge. -/
def inputNames
    (graph : Graph)
    (names : NameTable)
    (node : Node) : List Nat → Except CompileError (List String)
  | [] => .ok []
  | place :: rest => do
      let name ← inputName graph names node place
      let others ← inputNames graph names node rest
      .ok (name :: others)

/- The imports of a block and those that its tag requires. -/
def blockImports
    (settings : Settings)
    (tag : String)
    (generated : Generated) : Except CompileError ImportBlock := do
  let imports ← ImportBlock.ofDirectives generated.imports
  imports.addAll (settings.imports.forTag tag)

/- Make the block of a node and take up its imports. -/
def visit
    (settings : Settings)
    (registry : Registry)
    (graph : Graph)
    (progress : Progress)
    (place : Nat)
    (node : Node) : Traced Event CompileError Progress := do
  let name := nodeName node.kind node.id
  let names ←
    Traced.ofExcept (progress.names.assign place node.id name)
  let inputs ←
    Traced.ofExcept
      (inputNames graph names node (graph.inputsOf place))
  let tag := node.kind.tag
  let generated ←
    registry.generate
      { id := node.id
        kind := node.kind
        name := name
        options := node.options
        inputs := inputs
        layout := settings.layout }
  let imports ←
    Traced.ofExcept do
      let block ← blockImports settings tag generated
      progress.imports.merge block
  return {
    body := progress.body ++ generated.lines
    imports := imports
    names := names
    unhandled :=
      progress.unhandled
        + (if registry.isRegistered tag then 0 else 1) }

/- Visit the nodes in the given places, one after the other. -/
def visitAll
    (settings : Settings)
    (registry : Registry)
    (graph : Graph) :
    Progress → List Nat → Traced Event CompileError Progress
  | progress, [] => .done progress
  | progress, place :: rest =>
      match graph.nodes[place]? with
      | none => visitAll settings registry graph progress rest
      | some node => do
          let next ←
            visit settings registry graph progress place node
          visitAll settings registry graph next rest

/- The blocks of all nodes, begun with the default imports. -/
def generate
    (settings : Settings)
    (registry : Registry)
    (graph : Graph)
    (order : List Nat) : Traced Event CompileError Progress := do
  let imports ←
    Traced.ofExcept
      (ImportBlock.ofDirectives settings.imports.defaults)
  visitAll settings registry graph
    { body := []
      imports := imports
      names := .empty
      unhandled := 0 }
    order

------------------------------------------------------------
-- Work in Phases
------------------------------------------------------------

/-
  Work that begins in some phase. Whether or not it succeeds,
  it ends in some phase.
-/
def Staged (α : Type) : Type :=
  Phase → Phase × Traced Event CompileError α

namespace Staged

variable {α β : Type}

/- Work that stays in its phase. -/
def lift (x : Traced Event CompileError α) : Staged α :=
  fun phase => (phase, x)

/- Go on, in the phase that was reached, unless work fails. -/
def andThen
    (work : Staged α)
    (next : α → Staged β) : Staged β :=
  fun phase =>
    let (reached, x) := work phase
    match x.outcome with
    | .ok value =>
        let (last, y) := next value reached
        (last, y.after x.events)
    | .error error => (reached, ⟨x.events, .error error⟩)

instance : Monad Staged where
  pure value := lift (.done value)
  bind := andThen

end Staged

/- Step into another phase. -/
def transition (next : Phase) : Staged Unit :=
  fun phase => (next, .emit (.phaseChanged phase next))

------------------------------------------------------------
-- Whole Scripts
------------------------------------------------------------

/- The script of a pipeline whose nodes were all visited. -/
def scriptOf
    (settings : Settings)
    (description : Description)
    (graph : Graph)
    (order : List Nat)
    (progress : Progress) : Script where
  pipelineId := description.pipelineId
  text :=
    Text.unlines
      (Layout.lines settings description.remarks
        progress.imports progress.body)
  imports := progress.imports
  order := graph.idsAt order
  names :=
    order.filterMap fun place =>
      match graph.nodes[place]?, progress.names.get? place with
      | some node, some name => some (node.id, name)
      | _, _ => none
  statistics :=
    { nodes := graph.size
      sources := graph.sourceCount
      sinks := graph.sinkCount
      unhandled := progress.unhandled
      imports := progress.imports.size }

/- Settings that cannot make a script are a problem of it. -/
def checkSettings
    (settings : Settings) : Traced Event CompileError Unit :=
  settings.check.mapError fun problem =>
    .validation (.settings problem)

/- Make a script, from one phase to the next. -/
def run
    (settings : Settings)
    (registry : Registry)
    (description : Description) : Staged Script := do
  Staged.lift (checkSettings settings)
  let graph ←
    Staged.lift (.ofExcept (Graph.ofDescription description))
  transition .graphBuilt
  let order ← Staged.lift (.ofExcept graph.order)
  transition .sorted
  transition .generating
  let progress ←
    Staged.lift (generate settings registry graph order)
  transition .assembled
  return scriptOf settings description graph order progress

/- Work that fails is reported, and ends in the last phase. -/
def conclude (work : Staged Script) : Staged Script :=
  fun phase =>
    let ended := work phase
    match ended.2.outcome with
    | .ok _ => ended
    | .error error =>
        let closed :=
          (do
            Staged.lift (.emit (.assemblyFailed error))
            transition .failed
            Staged.lift (.fail error) : Staged Script) ended.1
        (closed.1, closed.2.after ended.2.events)

/- Make a script, or report why there is none. -/
def conduct
    (settings : Settings)
    (registry : Registry)
    (description : Description) : Staged Script :=
  conclude (run settings registry description)

/- Make a script from the first phase on. -/
def assemble
    (settings : Settings)
    (registry : Registry)
    (description : Description) :
    Traced Event CompileError Script :=
  (conduct settings registry description .initialized).2

end Assembly

------------------------------------------------------------
-- Assemblers
------------------------------------------------------------

/- What makes one script, and the phase it is in. -/
structure Assembler where
  settings : Settings
  registry : Registry
  phase : Phase

namespace Assembler

/- An assembler that has not been used. -/
def new
    (settings : Settings)
    (registry : Registry) : Assembler where
  settings := settings
  registry := registry
  phase := .initialized

/- Make a script, unless the assembler has been used. -/
def assemble
    (assembler : Assembler)
    (description : Description) :
    Assembler × Traced Event CompileError Script :=
  if assembler.phase = .initialized then
    let made :=
      Assembly.conduct assembler.settings assembler.registry
        description assembler.phase
    ({ assembler with phase := made.1 }, made.2)
  else
    (assembler,
      .fail (.validation (.assemblerSpent assembler.phase)))

end Assembler

end PipelineScript
