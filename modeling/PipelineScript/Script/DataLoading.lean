import PipelineScript.Script.Generator

/-
  Blocks that load a folder of images.

  Key definitions include:
    * `Generator.dataLoading`
-/

namespace PipelineScript

namespace DataLoading

/- What a loader can be told. -/
structure Choices where
  datasetPath : String
  batchSize : Int
  shuffle : Bool
deriving DecidableEq, Repr

/- The choices that options make. -/
def choose
    (options : Options) :
    Traced Event CompileError Choices := do
  let datasetPath ←
    options.textOr "datasetPath" "/path/to/dataset"
  let batchSize ← options.integerOr "batchSize" 32
  let shuffle ← options.booleanOr "shuffle" true
  return ⟨datasetPath, batchSize, shuffle⟩

/- A loader takes no inputs, and says so if it has some. -/
def reportInputs
    (request : Request) : Traced Event CompileError Unit :=
  if request.inputs.isEmpty then
    .done ()
  else
    .emit (.loaderInputsIgnored request.id request.inputs.length)

/- The imports of a loader. -/
def imports : List Directive :=
  [.aliased "torchvision.transforms" "transforms",
    .memberOf "torchvision.datasets" "ImageFolder",
    .memberOf "torch.utils.data" "DataLoader"]

/- The code of a loader. -/
def items (name : String) (choices : Choices) : List Code.Item :=
  [.line ("# Node: DataLoader " ++ name),
    .line ("dataset_path = " ++ Literal.text choices.datasetPath),
    .line ("batch_size = " ++ Literal.integer choices.batchSize),
    .line ("shuffle = " ++ Literal.boolean choices.shuffle),
    .block "base_transform = transforms.Compose(["
      [.line "transforms.Resize((224, 224)),",
        .line "transforms.ToTensor()"],
    .line "])",
    .line ("temp_dataset = ImageFolder(root=dataset_path, "
      ++ "transform=base_transform)"),
    .line (name ++ " = DataLoader(temp_dataset, "
      ++ "batch_size=batch_size, shuffle=shuffle)"),
    .blank]

end DataLoading

namespace Generator

/- Blocks that load a folder of images. -/
def dataLoading : Generator where
  name := "DataLoader"
  generate := fun request => do
    let choices ← DataLoading.choose request.options
    DataLoading.reportInputs request
    return {
      lines :=
        request.render (DataLoading.items request.name choices)
      imports := DataLoading.imports }

end Generator

end PipelineScript
