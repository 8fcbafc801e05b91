import PipelineScript.Description.Options
import PipelineScript.Import.Directive
import PipelineScript.Script.Code
import PipelineScript.Script.Literal

/-
  Generators of the blocks that nodes become.

  The last statement of a block binds the name of its node,
  which is how the nodes behind it get at what it puts out.

  Key definitions include:
    * `GeneratorOptions`
    * `Request`
    * `Generated`
    * `Generator`
    * `Generator.placeholder`
-/

namespace PipelineScript

/- What all generators of one script are told. -/
structure GeneratorOptions where
  indent : String
  isStrict : Bool
  bindsDevice : Bool
deriving DecidableEq, Repr

/- What a generator is told of a node. -/
structure Request where
  id : NodeId
  kind : NodeKind
  name : String
  options : Options
  inputs : List String
  layout : GeneratorOptions
deriving Repr

/- What stands for an input that is not there. -/
def missingInput : String :=
  "None"

/- The statement that chooses where a model is trained. -/
def deviceSetup : String :=
  "device = torch.device('cuda' if torch.cuda.is_available() "
    ++ "else 'cpu')"

namespace Request

/- The first input of a node. -/
def primaryInput (request : Request) : String :=
  request.inputs.headD missingInput

/- Items as lines that can be put into the entry routine. -/
def render
    (request : Request)
    (items : List Code.Item) : List String :=
  Code.render request.layout.indent items

end Request

/- The lines of a block, and the imports that they need. -/
structure Generated where
  lines : List String
  imports : List Directive
deriving DecidableEq, Repr

/- A way to make blocks, under a name. -/
structure Generator where
  name : String
  generate : Request → Traced Event CompileError Generated

namespace Generator

/-
  Blocks for nodes of a kind that nothing is known about. They
  bind the name to nothing, so that the script stays whole.
-/
def placeholder : Generator where
  name := "Unhandled"
  generate := fun request =>
    ⟨[.placeholderUsed request.kind.tag request.id],
      .ok
        { lines :=
            request.render
              [.line ("# Node: "
                  ++ Literal.comment request.kind.tag
                  ++ " (unhandled)"),
                .line ("# No code generator is registered for "
                  ++ "this node type."),
                .line (request.name ++ " = None"),
                .blank]
          imports := [] }⟩

end Generator

end PipelineScript
