import PipelineScript.Script.Assembly

/-
  Compilers of pipelines into scripts.

  Key definitions include:
    * `Compiler`
    * `Compiler.compile`
    * `Compiler.validate`
-/

namespace PipelineScript

/- Settings and generators, for any number of pipelines. -/
structure Compiler where
  settings : Settings
  registry : Registry

namespace Compiler

/- A compiler with the generators of the known kinds. -/
def ofSettings (settings : Settings) : Compiler where
  settings := settings
  registry := .standard

/- Make a pipeline into a script. -/
def compile
    (compiler : Compiler)
    (description : Description) :
    Traced Event CompileError Script := do
  let script ←
    Assembly.assemble compiler.settings compiler.registry
      description
  Traced.emit
    (.compiled description.pipelineId script.statistics.nodes
      script.statistics.imports)
  return script

/- The order of the nodes, if there is a script without it. -/
def validate
    (_compiler : Compiler)
    (description : Description) :
    Except CompileError (List NodeId) := do
  let graph ← Graph.ofDescription description
  let order ← graph.order
  return graph.idsAt order

end Compiler

end PipelineScript
