/-
  Kinds of nodes, written as tags.

  Three kinds are known. Every other tag is a kind of its own
  that nothing is known about.

  Key definitions include:
    * `NodeKind`
    * `NodeKind.ofTag`
    * `NodeKind.tag`
    * `NodeKind.ofTag_tag`
-/

namespace PipelineScript

/- The tags of the known kinds. -/
def knownTags : List String :=
  ["DataLoader", "ImageAugmentation", "ModelTraining"]

/- The kind of a node. An unknown kind has no known tag. -/
inductive NodeKind where
  | dataLoader
  | imageAugmentation
  | modelTraining
  | unknown (tag : String) (isNew : tag ∉ knownTags)
deriving DecidableEq, Repr

namespace NodeKind

/- The known kinds. -/
def known : List NodeKind :=
  [.dataLoader, .imageAugmentation, .modelTraining]

/- The kind that a tag stands for, letter by letter. -/
def ofTag (tag : String) : NodeKind :=
  if hLoader : tag = "DataLoader" then
    .dataLoader
  else if hAugment : tag = "ImageAugmentation" then
    .imageAugmentation
  else if hTrain : tag = "ModelTraining" then
    .modelTraining
  else
    .unknown tag
      (by simp [knownTags, hLoader, hAugment, hTrain])

/- The tag of a kind. -/
def tag : NodeKind → String
  | .dataLoader => "DataLoader"
  | .imageAugmentation => "ImageAugmentation"
  | .modelTraining => "ModelTraining"
  | .unknown tag _ => tag

/- The kind of the tag of a kind is that kind. -/
theorem ofTag_tag (kind : NodeKind) :
    ofTag kind.tag = kind := by
  cases kind with
  | dataLoader => rfl
  | imageAugmentation => rfl
  | modelTraining => rfl
  | unknown tag isNew =>
      have hNew := isNew
      simp only [knownTags, List.mem_cons, List.not_mem_nil,
        or_false, not_or] at hNew
      simp [ofTag, NodeKind.tag, hNew.1, hNew.2.1, hNew.2.2]

/- The tag of the kind of a tag is that tag. -/
theorem tag_ofTag (text : String) :
    (ofTag text).tag = text := by
  unfold ofTag
  split
  · next h => exact h.symm
  split
  · next h => exact h.symm
  split
  · next h => exact h.symm
  · rfl

/- The kind as it is shown to a reader. -/
def displayName : NodeKind → String
  | .dataLoader => "Data Loader"
  | .imageAugmentation => "Image Augmentation"
  | .modelTraining => "Model Training"
  | .unknown tag _ => tag

/- The kind is one of the known kinds. -/
def isKnown : NodeKind → Bool
  | .unknown _ _ => false
  | _ => true

/- A pipeline is expected to start with this kind. -/
def isSource : NodeKind → Bool
  | .dataLoader => true
  | _ => false

/- What nodes of a kind do, in a few lines. -/
def description : NodeKind → String
  | .dataLoader =>
      "Loads an image folder dataset.\n"
        ++ "Resizes to 224x224 and converts to tensors.\n"
        ++ "Configure datasetPath, batchSize and shuffle."
  | .imageAugmentation =>
      "Applies random augmentations to an upstream loader.\n"
        ++ "Rotation, horizontal flip, brightness and crop.\n"
        ++ "Keeps the upstream batch size and shuffle setting."
  | .modelTraining =>
      "Trains a torchvision model on an upstream loader.\n"
        ++ "Choose modelType, epochs and learningRate.\n"
        ++ "Optimizer is configured through optimizerConfig."
  | .unknown _ _ =>
      "No code generator is registered for this type.\n"
        ++ "A placeholder assignment is emitted instead."

end NodeKind

end PipelineScript
