import PipelineScript.Script.Augmentation
import PipelineScript.Script.DataLoading
import PipelineScript.Script.Training

/-
  Which generator makes the blocks of which nodes.

  Key definitions include:
    * `Registry`
    * `Registry.standard`
    * `Registry.register`
    * `Registry.resolve`
    * `Registry.generate`
-/

namespace PipelineScript

/- Generators for tags, and one for all other tags. -/
structure Registry where
  generators : Table String Generator
  fallback : Generator

namespace Registry

/- No tag has a generator. -/
def empty : Registry where
  generators := .empty
  fallback := .placeholder

/- Put a generator under a tag. -/
def register
    (registry : Registry)
    (tag : String)
    (generator : Generator) : Registry :=
  { registry with
    generators := registry.generators.insert tag generator }

/- The known kinds have their generators. -/
def standard : Registry :=
  empty
    |>.register NodeKind.dataLoader.tag .dataLoading
    |>.register NodeKind.imageAugmentation.tag .augmentation
    |>.register NodeKind.modelTraining.tag .training

/- A tag has a generator of its own. -/
def isRegistered
    (registry : Registry)
    (tag : String) : Bool :=
  registry.generators.contains tag

/- The tags that have a generator, in their sorted order. -/
def tags (registry : Registry) : List String :=
  registry.generators.keys.mergeSort fun s t => decide (s ≤ t)

/- The generator for a tag. -/
def resolve
    (registry : Registry)
    (tag : String) : Generator :=
  (registry.generators.get? tag).getD registry.fallback

/- Make a block with the generator for its node. -/
def generate
    (registry : Registry)
    (request : Request) : Traced Event CompileError Generated := do
  let generator := registry.resolve request.kind.tag
  Traced.emit (.generating request.id generator.name)
  generator.generate request

/- The registry as it is shown to a developer. -/
def describe (registry : Registry) : String :=
  "GeneratorRegistry \x7b tags: ["
    ++ ", ".intercalate (registry.tags.map Text.quoted)
    ++ "], fallback: " ++ Text.quoted registry.fallback.name
    ++ " \x7d"

end Registry

end PipelineScript
