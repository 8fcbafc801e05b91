import PipelineScript.Script.Generator

/-
  Blocks that change the images of a loader at random.

  An option makes a step only where it is switched on. The new
  loader keeps the batch size and the shuffling of its input.

  Key definitions include:
    * `Augmentation.steps`
    * `Generator.augmentation`
-/

namespace PipelineScript

namespace Augmentation

------------------------------------------------------------
-- Steps
------------------------------------------------------------

/- A step that an option with a positive number makes. -/
def positiveStep
    (options : Options)
    (key call : String) :
    Traced Event CompileError (List String) := do
  match ← options.positive? key with
  | none => return []
  | some n => return [call ++ Literal.number n ++ ")"]

/- Turning images. -/
def rotationStep
    (options : Options) :
    Traced Event CompileError (List String) :=
  positiveStep options "rotation" "transforms.RandomRotation("

/- Flipping images, always or with a probability. -/
def flipStep
    (options : Options) :
    Traced Event CompileError (List String) :=
  match options.get? "flip" with
  | some (.boolean true) =>
      .done ["transforms.RandomHorizontalFlip()"]
  | some (.number _) =>
      positiveStep options "flip"
        "transforms.RandomHorizontalFlip(p="
  | _ => .done []

/- Changing the brightness. -/
def brightnessStep
    (options : Options) :
    Traced Event CompileError (List String) :=
  positiveStep options "brightness"
    "transforms.ColorJitter(brightness="

/- A list as a tuple, and any other value as itself. -/
def extent : Json.Value → String
  | .array items => Literal.tuple items
  | other => Literal.value other

/- The step that crops images to a size. -/
def cropCall
    (size : Json.Value)
    (scale : Option Json.Value) : String :=
  match scale with
  | none | some .null =>
      "transforms.RandomResizedCrop(size=" ++ extent size ++ ")"
  | some scale =>
      "transforms.RandomResizedCrop(size=" ++ extent size
        ++ ", scale=" ++ extent scale ++ ")"

/-
  Cropping images. The size and the scale are the first items
  of a list, or stand under their names in a mapping.
-/
def cropStep
    (options : Options) :
    Traced Event CompileError (List String) :=
  match options.get? "crop" with
  | none => .done []
  | some (.array []) => .done []
  | some (.boolean false) => .done []
  | some (.array (size :: rest)) =>
      .done [cropCall size rest.head?]
  | some (.object members) =>
      match members.lookup "size" with
      | none => .done []
      | some size =>
          .done [cropCall size (members.lookup "scale")]
  | some other => ⟨[.cropIgnored other], .ok []⟩

/- All steps that options make, in a fixed order. -/
def steps
    (options : Options) :
    Traced Event CompileError (List String) := do
  let rotation ← rotationStep options
  let flip ← flipStep options
  let brightness ← brightnessStep options
  let crop ← cropStep options
  return rotation ++ flip ++ brightness ++ crop

------------------------------------------------------------
-- Blocks
------------------------------------------------------------

/- One input is used, and more of them are told of. -/
def reportInputs
    (request : Request) : Traced Event CompileError Unit :=
  if request.inputs.length > 1 then
    .emit (.furtherInputsIgnored request.id
      request.primaryInput (request.inputs.length - 1))
  else
    .done ()

/- The imports of a loader with changed images. -/
def imports : List Directive :=
  [.whole "torch",
    .aliased "torchvision.transforms" "transforms",
    .memberOf "torch.utils.data" "DataLoader"]

/- The code of a loader with changed images. -/
def items
    (name input : String)
    (steps : List String) : List Code.Item :=
  [.line ("# Node: ImageAugmentation " ++ name),
    .line "aug_transforms = []"]
  ++ steps.map (fun step =>
    .line ("aug_transforms.append(" ++ step ++ ")"))
  ++ [.line ("aug_transforms.append("
      ++ "transforms.Resize((224, 224)))"),
    .line "aug_transforms.append(transforms.ToTensor())",
    .line ("augmentation_transform = "
      ++ "transforms.Compose(aug_transforms)"),
    .blank,
    .line "# Extract dataset from the upstream DataLoader",
    .line ("upstream_dataset = " ++ input ++ ".dataset"),
    .line "upstream_dataset.transform = augmentation_transform",
    .blank,
    .block (name ++ " = DataLoader(upstream_dataset,")
      [.line ("batch_size=" ++ input ++ ".batch_size,"),
        .line ("shuffle=isinstance(" ++ input
          ++ ".sampler, torch.utils.data.RandomSampler))")],
    .blank]

end Augmentation

namespace Generator

/- Blocks that change the images of a loader at random. -/
def augmentation : Generator where
  name := "ImageAugmentation"
  generate := fun request => do
    Augmentation.reportInputs request
    let steps ← Augmentation.steps request.options
    return {
      lines :=
        request.render
          (Augmentation.items request.name
            request.primaryInput steps)
      imports := Augmentation.imports }

end Generator

end PipelineScript
