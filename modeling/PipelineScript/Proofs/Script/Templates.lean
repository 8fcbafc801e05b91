import PipelineScript.Proofs.Script.Generators
import PipelineScript.Proofs.Script.WorkingCode

/-
  The blocks of all generators: their statements work on names
  that the script keeps for itself, and the last one binds the
  name of the node.

  Key theorems include:
    * `DataLoading.isClosed_items`
    * `Augmentation.isClosed_items`
    * `Training.isClosed_items`
    * `Request.isClosed_of_becomes`
-/

namespace PipelineScript

open Lexis

variable {known : List (List Char)} {unit name input : String}

/- The characters of a name are legible. -/
theorem isLegible_of_isName
    (hName : Text.isName name) :
    ∀ c ∈ name.toList, isLegible c :=
  isLegible_of_run (moves_name 0 hName)

------------------------------------------------------------
-- Loading Data
------------------------------------------------------------

namespace DataLoading

/- The choices are kept in working names. -/
theorem isWorking_choices
    (hName : Text.isName name)
    (choices : Choices) :
    Code.IsWorking known
      [.line ("# Node: DataLoader " ++ name),
        .line
          ("dataset_path = " ++ Literal.text choices.datasetPath),
        .line
          ("batch_size = " ++ Literal.integer choices.batchSize),
        .line ("shuffle = " ++ Literal.boolean choices.shuffle)] := by
  refine .line ?_ (.line ?_ (.line ?_ (.line ?_ .nil)))
  · exact isWorkingText_comment rfl (isLegible_of_isName hName)
  · exact isWorkingText_assignment rfl rfl
      (isScalarText_text choices.datasetPath)
  · exact isWorkingText_assignment rfl rfl
      (isScalarText_integer choices.batchSize)
  · exact isWorkingText_assignment rfl rfl
      (isScalarText_boolean choices.shuffle)

/- Images are changed before they are read. -/
theorem isWorking_transform :
    Code.IsWorking known
      [.block "base_transform = transforms.Compose(["
        [.line "transforms.Resize((224, 224)),",
          .line "transforms.ToTensor()"],
        .line "])"] :=
  yields_of_spells (.cons (.cons (.cons (.cons .nil)))) rfl

/- The last line of a loader binds its name. -/
theorem isClosed_items
    (hUnit : Code.IsRoom unit)
    (hName : Text.isName name)
    (hLoop : name.toList ≠ ['f', 'o', 'r'])
    (choices : Choices) :
    IsClosed name.toList known
      (Code.render unit (items name choices)) := by
  have hFolder :
      Code.IsWorking known
        [.line ("temp_dataset = ImageFolder(root=dataset_path, "
          ++ "transform=base_transform)")] :=
    .line (isWorkingText_of_isSpelled
      (.append (.literal _) (.literal _)) rfl) .nil
  have hFront :=
    ((isWorking_choices hName choices).append
      isWorking_transform).append hFolder
  have hText :
      IsSpelled (" = DataLoader(temp_dataset, "
        ++ "batch_size=batch_size, shuffle=shuffle)") _ :=
    .append (.literal _) (.literal _)
  have hClosed :=
    Code.isClosed_line hUnit hName hLoop hFront hText rfl rfl
      rfl
  rw [← String.append_assoc] at hClosed
  exact hClosed

end DataLoading

------------------------------------------------------------
-- Augmenting Images
------------------------------------------------------------

namespace Augmentation

/- A size or a scale is quiet, as a tuple and otherwise. -/
theorem isQuietText_extent (size : Json.Value) :
    IsQuietText (extent size) := by
  unfold extent
  split
  · exact isQuietText_tuple _
  · exact isQuietText_value _

/- A value is the last thing in the brackets of a call. -/
theorem encloses_call
    {text value : String}
    (hText : Encloses known ⟨1, .blank⟩ text ⟨2, .blank⟩)
    (hValue : IsQuietText value) :
    Encloses known ⟨1, .blank⟩ (text ++ value ++ ")")
      ⟨1, .blank⟩ :=
  hText.value hValue (by decide) rfl rfl

/- A step stays in the brackets that it is put in. -/
theorem encloses_step
    {step : String}
    (hStep : IsStep step) :
    Encloses known ⟨1, .blank⟩ step ⟨1, .blank⟩ := by
  have hNumber (n : Number) : IsQuietText (Literal.number n) :=
    (isScalarText_number n).isQuietText
  cases hStep with
  | rotation n =>
      exact encloses_call (encloses_literal rfl rfl) (hNumber n)
  | flip => exact encloses_literal rfl rfl
  | flipChance n =>
      exact encloses_call (encloses_literal rfl rfl) (hNumber n)
  | brightness n =>
      exact encloses_call (encloses_literal rfl rfl) (hNumber n)
  | crop size scale =>
      have hSize := isQuietText_extent size
      unfold cropCall
      split
      · exact encloses_call (encloses_literal rfl rfl) hSize
      · exact encloses_call (encloses_literal rfl rfl) hSize
      · next extra _ =>
          have hOpen :
              Encloses known ⟨1, .blank⟩
                ("transforms.RandomResizedCrop(size="
                  ++ extent size ++ ", scale=")
                ⟨2, .blank⟩ :=
            (encloses_literal rfl rfl).value hSize
              (by decide) rfl rfl
          exact encloses_call hOpen (isQuietText_extent extra)

/- Every step is put into the list of steps. -/
theorem isWorking_steps
    {steps : List String}
    (hSteps : ∀ step ∈ steps, IsStep step) :
    Code.IsWorking known
      (steps.map fun step =>
        .line ("aug_transforms.append(" ++ step ++ ")")) := by
  induction steps with
  | nil => exact .nil
  | cons step steps ih =>
      rw [List.forall_mem_cons] at hSteps
      refine .line ?_ (ih hSteps.2)
      exact isWorkingText_enclosing rfl (encloses_step hSteps.1)
        rfl rfl

/- The data set of the input is used with all steps. -/
theorem isWorking_dataset
    (hInput : Text.isName input)
    (hKnown : input.toList ∈ known) :
    Code.IsWorking known
      [.line ("aug_transforms.append("
          ++ "transforms.Resize((224, 224)))"),
        .line "aug_transforms.append(transforms.ToTensor())",
        .line ("augmentation_transform = "
          ++ "transforms.Compose(aug_transforms)"),
        .blank,
        .line "# Extract dataset from the upstream DataLoader",
        .line ("upstream_dataset = " ++ input ++ ".dataset"),
        .line "upstream_dataset.transform = augmentation_transform",
        .blank] := by
  refine .line ?_ (.line ?_ (.line ?_ (.blank (.line ?_
    (.line ?_ (.line ?_ (.blank .nil)))))))
  · exact isWorkingText_of_isSpelled
      (.append (.literal _) (.literal _)) rfl
  · exact isWorkingText_literal rfl
  · exact isWorkingText_of_isSpelled
      (.append (.literal _) (.literal _)) rfl
  · exact isWorkingText_literal rfl
  · exact isWorkingText_named hInput hKnown rfl rfl rfl rfl rfl
  · exact isWorkingText_literal rfl

/- The tokens of the line that begins the last statement. -/
def headerTokens : List Placed :=
  placedAt 0
      [.name ['D', 'a', 't', 'a', 'L', 'o', 'a', 'd', 'e',
      'r'], .symbol '(']
    ++ placedAt 1
      [.name ['u', 'p', 's', 't', 'r', 'e', 'a', 'm', '_', 'd',
      'a', 't', 'a', 's', 'e', 't'], .symbol ',']

/- The tokens in front of the input in the line behind it. -/
def sizeTokens : List Placed :=
  placedAt 1
    [.name ['b', 'a', 't', 'c', 'h', '_', 's', 'i', 'z', 'e'],
    .symbol '=']

/- The tokens in front of the input in the last line. -/
def shuffleTokens : List Placed :=
  placedAt 1
    [.name ['s', 'h', 'u', 'f', 'f', 'l', 'e'], .symbol '=',
    .name ['i', 's', 'i', 'n', 's', 't', 'a', 'n', 'c', 'e'],
    .symbol '(']

/- The tokens behind the input in the last line. -/
def samplerTokens : List Placed :=
  placedAt 2
      [.symbol '.', .member, .symbol ',', .name ['t', 'o', 'r',
      'c', 'h'], .symbol '.', .member, .symbol '.', .member,
      .symbol '.', .member]
    ++ placedAt 1 [.symbol ')']

/- The closing statement of an augmentation. -/
def closing (name input : String) : List Code.Item :=
  [.block (name ++ " = DataLoader(upstream_dataset,")
    [.line ("batch_size=" ++ input ++ ".batch_size,"),
      .line ("shuffle=isinstance(" ++ input
        ++ ".sampler, torch.utils.data.RandomSampler))")],
    .blank]

/- The size of the batches is that of the input. -/
theorem moves_size
    (hInput : Text.isName input) :
    Moves ⟨1, .blank⟩ ("batch_size=" ++ input ++ ".batch_size,")
      (sizeTokens ++ ⟨1, .name input.toList⟩ ::
        placedAt 1 [.symbol '.', .member, .symbol ','])
      ⟨1, .blank⟩ :=
  moves_named hInput rfl rfl

/- Images are shuffled if those of the input are. -/
theorem moves_shuffle
    (hInput : Text.isName input) :
    Moves ⟨1, .blank⟩
      ("shuffle=isinstance(" ++ input
        ++ ".sampler, torch.utils.data.RandomSampler))")
      (shuffleTokens ++ ⟨2, .name input.toList⟩ ::
        (samplerTokens ++ [⟨0, .symbol ')'⟩]))
      ⟨0, .blank⟩ :=
  moves_named hInput rfl rfl

/- Three lines give the name a loader like the input. -/
theorem exists_closing
    (hUnit : Code.IsRoom unit)
    (hName : Text.isName name)
    (hLoop : name.toList ≠ ['f', 'o', 'r'])
    (hInput : Text.isName input)
    (hKnown : input.toList ∈ known) :
    ∃ tokens,
      gather none
          (((Code.entries 0 (closing name input)).map
            (Code.lineAt unit)).map String.toList) =
        some [⟨0, tokens⟩] ∧
      Closes name.toList known tokens := by
  have hMoves :
      Moves ⟨0, .blank⟩ (name ++ " = DataLoader(upstream_dataset,")
        (⟨0, .name name.toList⟩ :: ⟨0, .symbol '='⟩ ::
          headerTokens)
        ⟨1, .blank⟩ :=
    (moves_name 0 hName).append (.ofList rfl)
  have hGather :=
    Code.gather_block hUnit hMoves (moves_size hInput)
      (moves_shuffle hInput) (by simp)
  rw [takeWhile_isRoom_name hName] at hGather
  refine ⟨_, hGather, ?_⟩
  have hFirst :
      ∀ placed ∈ sizeTokens ++ ⟨1, .name input.toList⟩ ::
          placedAt 1 [.symbol '.', .member, .symbol ','],
        1 ≤ placed.depth ∧ IsKnown known placed :=
    enclosed_named hKnown (Nat.le_refl 1) rfl
  have hSecond :
      ∀ placed ∈ shuffleTokens ++ ⟨2, .name input.toList⟩ ::
          samplerTokens,
        1 ≤ placed.depth ∧ IsKnown known placed :=
    enclosed_named hKnown (Nat.le_succ 1) rfl
  have hCloses :=
    closes_around hLoop (List.forall_mem_append.mpr
      ⟨hFirst, hSecond⟩)
      (show isClosing (headerTokens ++ [⟨0, .symbol ')'⟩]) from
        rfl)
  simpa using hCloses

/- The last lines of an augmentation bind its name. -/
theorem isClosed_items
    (hUnit : Code.IsRoom unit)
    (hName : Text.isName name)
    (hLoop : name.toList ≠ ['f', 'o', 'r'])
    (hInput : Text.isName input)
    (hKnown : input.toList ∈ known)
    {steps : List String}
    (hSteps : ∀ step ∈ steps, IsStep step) :
    IsClosed name.toList known
      (Code.render unit (items name input steps)) := by
  have hBegin :
      Code.IsWorking known
        [.line ("# Node: ImageAugmentation " ++ name),
          .line "aug_transforms = []"] := by
    refine .line ?_ (.line (isWorkingText_literal rfl) .nil)
    exact isWorkingText_comment rfl (isLegible_of_isName hName)
  have hFront :=
    (hBegin.append (isWorking_steps hSteps)).append
      (isWorking_dataset hInput hKnown)
  rcases exists_closing hUnit hName hLoop hInput hKnown with
    ⟨tokens, hGather, hCloses⟩
  have hClosed :=
    Code.isClosed_render hUnit hFront hGather rfl hCloses
  rw [List.append_assoc] at hClosed
  exact hClosed

end Augmentation

------------------------------------------------------------
-- Training Models
------------------------------------------------------------

namespace Training

/- What a branch begins with, opened by one of two words. -/
theorem isWorkingText_branch
    {condition : List Char}
    (hIf :
      isCondition
        (['i', 'f'] ++ [' '] ++ condition ++ [' ', '=', '=', ' ']))
    (hElif :
      isCondition
        (['e', 'l', 'i', 'f'] ++ [' '] ++ condition
          ++ [' ', '=', '=', ' ']))
    {word : String}
    (hWord : word = "if" ∨ word = "elif")
    (value : String) :
    IsWorkingText known
      (word ++ " " ++ String.ofList condition ++ " == "
        ++ Literal.text value ++ ":") := by
  rcases hWord with rfl | rfl
  · exact isWorkingText_condition
      (.append (.append (.append (.literal _) (.literal _))
        (.literal _)) (.literal _)) hIf value
  · exact isWorkingText_condition
      (.append (.append (.append (.literal _) (.literal _))
        (.literal _)) (.literal _)) hElif value

/- Branches work if what is in them does. -/
theorem isWorking_branches
    {condition : List Char}
    (hIf :
      isCondition
        (['i', 'f'] ++ [' '] ++ condition ++ [' ', '=', '=', ' ']))
    (hElif :
      isCondition
        (['e', 'l', 'i', 'f'] ++ [' '] ++ condition
          ++ [' ', '=', '=', ' ']))
    {failure : String}
    (hFailure : IsWorkingText known failure)
    {cases : List (String × String)}
    (hCases : ∀ entry ∈ cases, IsWorkingText known entry.2)
    {word : String}
    (hWord : word = "if" ∨ word = "elif") :
    Code.IsWorking known
      (branches (String.ofList condition) failure word cases) := by
  induction cases generalizing word with
  | nil =>
      exact .block (isWorkingText_literal rfl)
        (.line hFailure .nil) .nil
  | cons entry cases ih =>
      rw [List.forall_mem_cons] at hCases
      exact .block
        (isWorkingText_branch hIf hElif hWord entry.1)
        (.line hCases.1 .nil) (ih hCases.2 (Or.inr rfl))

/- The choices are kept in working names. -/
theorem isWorking_choices (choices : Choices) :
    Code.IsWorking known
      [.blank,
        .line "criterion = nn.CrossEntropyLoss()",
        .line ("learning_rate = "
          ++ Literal.binary choices.learningRate),
        .line ("epochs = " ++ Literal.integer choices.epochs),
        .blank,
        .line
          ("optimizer_type = " ++ Literal.text choices.optimizer),
        .line ("beta1 = " ++ Literal.binary choices.beta1),
        .line ("beta2 = " ++ Literal.binary choices.beta2),
        .line ("momentum = " ++ Literal.binary choices.momentum),
        .blank] := by
  refine .blank (.line ?_ (.line ?_ (.line ?_ (.blank (.line ?_
    (.line ?_ (.line ?_ (.line ?_ (.blank .nil)))))))))
  · exact isWorkingText_literal rfl
  · exact isWorkingText_assignment rfl rfl
      (isScalarText_binary choices.learningRate)
  · exact isWorkingText_assignment rfl rfl
      (isScalarText_integer choices.epochs)
  · exact isWorkingText_assignment rfl rfl
      (isScalarText_text choices.optimizer)
  · exact isWorkingText_assignment rfl rfl
      (isScalarText_binary choices.beta1)
  · exact isWorkingText_assignment rfl rfl
      (isScalarText_binary choices.beta2)
  · exact isWorkingText_assignment rfl rfl
      (isScalarText_binary choices.momentum)

/- The branches that build a model work. -/
theorem isWorking_modelItems :
    Code.IsWorking known modelItems := by
  refine isWorking_branches rfl rfl ?_ ?_ (Or.inl rfl)
  · exact isWorkingText_of_isSpelled
      (.append (.literal _) (.literal _)) rfl
  · simp only [models, List.map_cons, List.map_nil,
      List.forall_mem_cons]
    refine ⟨?_, ?_, ?_, ?_, List.forall_mem_nil _⟩
    all_goals
      exact isWorkingText_of_isSpelled
        (.append (.append (.literal _) (.literal _))
          (.literal _)) rfl

/- The branches that build an optimizer work. -/
theorem isWorking_optimizerItems :
    Code.IsWorking known optimizerItems := by
  refine isWorking_branches rfl rfl ?_ ?_ (Or.inl rfl)
  · exact isWorkingText_of_isSpelled
      (.append (.literal _) (.literal _)) rfl
  · simp only [optimizers, List.map_cons, List.map_nil,
      List.forall_mem_cons]
    refine ⟨?_, ?_, ?_, List.forall_mem_nil _⟩
    all_goals
      exact isWorkingText_of_isSpelled
        (.append (.literal _) (.append (.literal _) (.literal _)))
        rfl

/- The loop works, over whatever loader. -/
theorem isWorking_loopItems
    {loader : String}
    (hLoader : Text.isName loader)
    (hKnown : loader.toList ∈ known) :
    Code.IsWorking known (loopItems loader) := by
  have hLiteral {letters : List Char}
      (hCheck : isWorkingLine letters) :
      IsWorkingText known (String.ofList letters) :=
    isWorkingText_literal hCheck
  have hBatch :
      Code.IsWorking known
        [.line ("datapoint, labels = datapoint.to(device), "
            ++ "labels.to(device)"),
          .line "temp_optimizer.zero_grad()",
          .line "outputs = temp_model(datapoint)",
          .line "loss = criterion(outputs, labels)",
          .line "loss.backward()",
          .line "temp_optimizer.step()",
          .line "running_loss += loss.item()"] := by
    refine .line (isWorkingText_of_isSpelled
      (.append (.literal _) (.literal _)) rfl) ?_
    exact .line (hLiteral rfl) (.line (hLiteral rfl)
      (.line (hLiteral rfl) (.line (hLiteral rfl)
        (.line (hLiteral rfl) (.line (hLiteral rfl) .nil)))))
  refine .line (hLiteral rfl) (.line ?_ (.block (hLiteral rfl)
    (.line (hLiteral rfl) (.line (hLiteral rfl) (.block ?_ hBatch
      (.line ?_ (.line ?_ .nil))))) .nil))
  · exact isWorkingText_of_isSpelled
      (.append (.literal _) (.literal _)) rfl
  · exact isWorkingText_named hLoader hKnown rfl rfl rfl rfl rfl
  · exact isWorkingText_named hLoader hKnown rfl rfl rfl rfl rfl
  · exact isWorkingText_of_isSpelled
      (.append (.literal _) (.literal _)) rfl

/- The last line of a training binds its name. -/
theorem isClosed_items
    {request : Request}
    (hUnit : Code.IsRoom unit)
    (hName : Text.isName request.name)
    (hLoop : request.name.toList ≠ ['f', 'o', 'r'])
    (hInput : Text.isName request.primaryInput)
    (hKnown : request.primaryInput.toList ∈ known)
    (choices : Choices) :
    IsClosed request.name.toList known
      (Code.render unit (items request choices)) := by
  have hBegin :
      Code.IsWorking known
        [.line ("# Node: ModelTraining " ++ request.name),
          .line ("model_type = " ++ Literal.text choices.model)] := by
    refine .line ?_ (.line ?_ .nil)
    · exact isWorkingText_comment rfl (isLegible_of_isName hName)
    · exact isWorkingText_assignment rfl rfl
        (isScalarText_text choices.model)
  have hDevice :
      Code.IsWorking known
        (if request.layout.bindsDevice then
          []
        else
          [.line deviceSetup]) := by
    split
    · exact .nil
    · exact .line (isWorkingText_of_isSpelled
        (.append (.literal _) (.literal _)) rfl) .nil
  have hEnd :
      Code.IsWorking known
        [.blank, .line "print('Training complete!')"] :=
    .blank (.line (isWorkingText_literal rfl) .nil)
  have hFront :=
    (((((hBegin.append isWorking_modelItems).append
      (isWorking_choices choices)).append
      isWorking_optimizerItems).append (.blank .nil)).append
      hDevice).append
      ((isWorking_loopItems hInput hKnown).append hEnd)
  have hText : IsSpelled " = temp_model" _ := .literal _
  have hClosed :=
    Code.isClosed_line hUnit hName hLoop hFront hText rfl rfl
      rfl
  simp only [List.append_assoc] at hClosed
  simp only [items, List.append_assoc]
  exact hClosed

end Training

------------------------------------------------------------
-- All Blocks
------------------------------------------------------------

namespace Request

variable {request : Request}

/- The last line of an unhandled node binds its name. -/
theorem isClosed_unhandledItems
    (hUnit : Code.IsRoom unit)
    (hName : Text.isName request.name)
    (hLoop : request.name.toList ≠ ['f', 'o', 'r']) :
    IsClosed request.name.toList known
      (Code.render unit request.unhandledItems) := by
  have hTag :
      ∀ c ∈ (Literal.comment request.kind.tag
          ++ " (unhandled)").toList, isLegible c := by
    rw [String.toList_append, List.forall_mem_append]
    exact ⟨fun _ hMem => isLegible_of_mem_comment hMem,
      List.all_eq_true.mp (by decide)⟩
  have hFront :
      Code.IsWorking known
        [.line ("# Node: " ++ (Literal.comment request.kind.tag
            ++ " (unhandled)")),
          .line ("# No code generator is registered for "
            ++ "this node type.")] := by
    refine .line ?_ (.line ?_ .nil)
    · exact isWorkingText_comment rfl hTag
    · exact isWorkingText_of_isSpelled
        (.append (.literal _) (.literal _)) rfl
  have hText : IsSpelled " = None" _ := .literal _
  have hClosed :=
    Code.isClosed_line hUnit hName hLoop hFront hText rfl rfl
      rfl
  rw [← String.append_assoc] at hClosed
  exact hClosed

/-
  Whatever a node becomes, the statements of its block work on
  names that the script keeps and may use the input, and the
  last of them binds the name of the node.
-/
theorem isClosed_of_becomes
    {items : List Code.Item}
    (hBecomes : request.Becomes items)
    (hUnit : Code.IsRoom request.layout.indent)
    (hName : Text.isName request.name)
    (hLoop : request.name.toList ≠ ['f', 'o', 'r'])
    (hInput : Text.isName request.primaryInput) :
    IsClosed request.name.toList [request.primaryInput.toList]
      (request.render items) := by
  cases hBecomes with
  | loader choices _ =>
      exact DataLoading.isClosed_items hUnit hName hLoop choices
  | augmentation steps _ hSteps =>
      exact Augmentation.isClosed_items hUnit hName hLoop hInput
        List.mem_cons_self hSteps
  | training choices _ =>
      exact Training.isClosed_items hUnit hName hLoop hInput
        List.mem_cons_self choices
  | unhandled tag isNew _ =>
      exact isClosed_unhandledItems hUnit hName hLoop

end Request

end PipelineScript
