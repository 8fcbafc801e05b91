import PipelineScript.Script.Generator
import PipelineScript.Text.LowerCase

/-
  Blocks that train a model on the images of a loader.

  The script itself fails on a model or an optimizer that it
  does not know. Where names are checked strictly, making the
  block fails instead.

  Key definitions include:
    * `Training.Choices`
    * `Training.check`
    * `Training.items`
    * `Generator.training`
-/

namespace PipelineScript

namespace Training

------------------------------------------------------------
-- Choices
------------------------------------------------------------

/- The models that a script can build. -/
def models : List String :=
  ["resnet18", "resnet50", "vgg16", "mobilenet_v2"]

/- The optimizers that a script can build, and how. -/
def optimizers : List (String × String) :=
  [("adam",
      "optim.Adam(temp_model.parameters(), lr=learning_rate, "
        ++ "betas=(beta1, beta2))"),
    ("adamw",
      "optim.AdamW(temp_model.parameters(), lr=learning_rate, "
        ++ "betas=(beta1, beta2))"),
    ("sgd",
      "optim.SGD(temp_model.parameters(), lr=learning_rate, "
        ++ "momentum=momentum)")]

/- What a training can be told. -/
structure Choices where
  model : String
  learningRate : Binary64
  epochs : Int
  optimizer : String
  beta1 : Binary64
  beta2 : Binary64
  momentum : Binary64
deriving DecidableEq, Repr

/- A decimal fraction in binary. -/
def decimal (digits : Nat) (places : Nat) : Binary64 :=
  (Binary64.ofDecimal? false digits (-places)).getD
    (.ofInt 0)

/- The choices that options make. -/
def choose
    (options : Options) :
    Traced Event CompileError Choices := do
  let model ← options.textOr "modelType" "resnet50"
  let learningRate ←
    options.binaryOr "learningRate" (decimal 1 3)
  let epochs ← options.integerOr "epochs" 10
  let inner ← options.sectionAt "optimizerConfig"
  let optimizer ← inner.textOr "type" "adam"
  let beta1 ← inner.binaryOr "beta1" (decimal 9 1)
  let beta2 ← inner.binaryOr "beta2" (decimal 999 3)
  let momentum ← inner.binaryOr "momentum" (decimal 9 1)
  return {
      model := model
      learningRate := learningRate
      epochs := epochs
      optimizer := Text.lowerCase optimizer
      beta1 := beta1
      beta2 := beta2
      momentum := momentum }

------------------------------------------------------------
-- Strict Names
------------------------------------------------------------

/- A name must be known if names are checked strictly. -/
def checkName
    (request : Request)
    (key name : String)
    (known : List String) : Except CompileError Unit :=
  if !request.layout.isStrict || known.contains name then
    .ok ()
  else
    .error (.unsupportedConfiguration request.id.text key name)

/- The model must be known, and then the optimizer. -/
def check
    (request : Request)
    (choices : Choices) : Except CompileError Unit := do
  checkName request "modelType"
    (Text.lowerCase choices.model) models
  checkName request "optimizerConfig.type" choices.optimizer
    (optimizers.map Prod.fst)

------------------------------------------------------------
-- Blocks
------------------------------------------------------------

/-
  One branch for every choice, the first of them opened by the
  given word, and a failure for what is left.
-/
def branches
    (condition failure : String) :
    (word : String) → List (String × String) → List Code.Item
  | _, [] => [.block "else:" [.line failure]]
  | word, (name, statement) :: rest =>
      .block
          (word ++ " " ++ condition ++ " == "
            ++ Literal.text name ++ ":")
          [.line statement]
        :: branches condition failure "elif" rest

/- The branches that build a model. -/
def modelItems : List Code.Item :=
  branches "model_type.lower()"
    ("raise ValueError(f'Unsupported model: "
      ++ "\x7bmodel_type\x7d')")
    "if"
    (models.map fun model =>
      (model, "temp_model = torchvision.models." ++ model
        ++ "(weights=None)"))

/- The branches that build an optimizer. -/
def optimizerItems : List Code.Item :=
  branches "optimizer_type"
    ("raise ValueError(f'Unsupported optimizer type: "
      ++ "\x7boptimizer_type\x7d')")
    "if"
    (optimizers.map fun (name, call) =>
      (name, "temp_optimizer = " ++ call))

/- The loop over epochs and over the images of a loader. -/
def loopItems (loader : String) : List Code.Item :=
  [.line "temp_model.to(device)",
    .line ("print(f'Starting training for \x7bepochs\x7d "
      ++ "epochs...')"),
    .block "for epoch in range(epochs):"
      [.line "temp_model.train()",
        .line "running_loss = 0.0",
        .block ("for datapoint, labels in " ++ loader ++ ":")
          [.line ("datapoint, labels = datapoint.to(device), "
              ++ "labels.to(device)"),
            .line "temp_optimizer.zero_grad()",
            .line "outputs = temp_model(datapoint)",
            .line "loss = criterion(outputs, labels)",
            .line "loss.backward()",
            .line "temp_optimizer.step()",
            .line "running_loss += loss.item()"],
        .line ("avg_loss = running_loss / len(" ++ loader ++ ")"),
        .line ("print(f'Epoch [\x7bepoch+1\x7d/\x7bepochs\x7d], "
          ++ "Loss: \x7bavg_loss:.4f\x7d')")]]

/- The imports of a training. -/
def imports : List Directive :=
  [.whole "torch",
    .aliased "torch.nn" "nn",
    .aliased "torch.optim" "optim",
    .whole "torchvision"]

/-
  The code of a training. The device is bound here unless the
  entry routine has bound it.
-/
def items
    (request : Request)
    (choices : Choices) : List Code.Item :=
  [.line ("# Node: ModelTraining " ++ request.name),
    .line ("model_type = " ++ Literal.text choices.model)]
  ++ modelItems
  ++ [.blank,
    .line "criterion = nn.CrossEntropyLoss()",
    .line ("learning_rate = "
      ++ Literal.binary choices.learningRate),
    .line ("epochs = " ++ Literal.integer choices.epochs),
    .blank,
    .line ("optimizer_type = " ++ Literal.text choices.optimizer),
    .line ("beta1 = " ++ Literal.binary choices.beta1),
    .line ("beta2 = " ++ Literal.binary choices.beta2),
    .line ("momentum = " ++ Literal.binary choices.momentum),
    .blank]
  ++ optimizerItems
  ++ [.blank]
  ++ (if request.layout.bindsDevice then
        []
      else
        [.line deviceSetup])
  ++ loopItems request.primaryInput
  ++ [.blank,
    .line "print('Training complete!')",
    .line (request.name ++ " = temp_model"),
    .blank]

end Training

namespace Generator

/- Blocks that train a model on the images of a loader. -/
def training : Generator where
  name := "ModelTraining"
  generate := fun request => do
    let choices ← Training.choose request.options
    Traced.ofExcept (Training.check request choices)
    return {
      lines := request.render (Training.items request choices)
      imports := Training.imports }

end Generator

end PipelineScript
