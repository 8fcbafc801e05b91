import PipelineScript.Proofs.Script.Layout
import PipelineScript.Proofs.Script.Suites

/-
  How far the lines of the entry routine stand in.

  The blocks are written at the margin and put into the routine
  one unit deeper, where they are suites again. So are the
  routine and its call, at the margin of the script.

  Key definitions include:
    * `Layout.routine`

  Key theorems include:
    * `Request.isSuite_of_becomes`
    * `Code.map_bodyLine_render`
    * `Layout.isBody_routine`
    * `Compiler.indentation_of_compile`
-/

namespace PipelineScript

open Lexis

variable {unit name input : String}

------------------------------------------------------------
-- Loading Data
------------------------------------------------------------

namespace DataLoading

/- The code of a loader is a suite. -/
theorem isSuite_items
    (hUnit : Code.IsRoom unit)
    (hName : Text.isName name)
    (choices : Choices) :
    Code.IsSuite unit (items name choices) := by
  have hChoices :
      Code.IsSuite unit
        [.line ("# Node: DataLoader " ++ name),
          .line
            ("dataset_path = " ++ Literal.text choices.datasetPath),
          .line
            ("batch_size = " ++ Literal.integer choices.batchSize),
          .line
            ("shuffle = " ++ Literal.boolean choices.shuffle)] := by
    refine .idle hUnit ?_ (.line hUnit ?_ (.line hUnit ?_
      (.line hUnit ?_ .nil)))
    · exact isIdleText_comment rfl (isLegible_of_isName hName)
    · exact isStatement_value rfl rfl
        (isScalarText_text choices.datasetPath)
        (ends_text choices.datasetPath)
    · exact isStatement_value rfl rfl
        (isScalarText_integer choices.batchSize)
        (ends_integer choices.batchSize)
    · exact isStatement_value rfl rfl
        (isScalarText_boolean choices.shuffle)
        (ends_boolean choices.shuffle)
  have hTransform :
      Code.IsBody unit
        [.block "base_transform = transforms.Compose(["
          [.line "transforms.Resize((224, 224)),",
            .line "transforms.ToTensor()"],
          .line "])"] := by
    have hOpens :
        IsStatement false 2
          "base_transform = transforms.Compose([" :=
      isStatement_literal rfl
    exact .continued hUnit hOpens rfl
  have hLoader :
      Code.IsSuite unit
        [.line ("temp_dataset = ImageFolder(root=dataset_path, "
            ++ "transform=base_transform)"),
          .line (name ++ " = DataLoader(temp_dataset, "
            ++ "batch_size=batch_size, shuffle=shuffle)"),
          .blank] := by
    refine .line hUnit ?_ (.line hUnit ?_ (.blank hUnit .nil))
    · exact IsSpelled.isStatement
        (.append (.literal _) (.literal _)) rfl
    · rw [String.append_assoc]
      exact isStatement_own hName
        (.append (.literal _) (.literal _)) rfl rfl rfl
  exact (hChoices.append hTransform.isSuite).append hLoader

end DataLoading

------------------------------------------------------------
-- Augmenting Images
------------------------------------------------------------

namespace Augmentation

/- The steps are put into the list of steps one by one. -/
theorem isSuite_steps
    (hUnit : Code.IsRoom unit)
    {steps : List String}
    (hSteps : ∀ step ∈ steps, IsStep step) :
    Code.IsSuite unit
      (steps.map fun step =>
        .line ("aug_transforms.append(" ++ step ++ ")")) := by
  induction steps with
  | nil => exact .nil
  | cons step steps ih =>
      rw [List.forall_mem_cons] at hSteps
      have hStep :
          Encloses [] ⟨1, .blank⟩ step ⟨1, .blank⟩ :=
        encloses_step hSteps.1
      exact .line hUnit
        (isStatement_enclosing rfl hStep rfl rfl rfl)
        (ih hSteps.2)

/- The closing statement is one line with two behind it. -/
theorem isBody_closing
    (hUnit : Code.IsRoom unit)
    (hName : Text.isName name)
    (hInput : Text.isName input) :
    Code.IsBody unit (closing name input) := by
  have hSize := lineTokens?_of_done (moves_size hInput) rfl
  have hShuffle := lineTokens?_of_done (moves_shuffle hInput) rfl
  have hBlank : lineTokens? 0 "".toList = some ([], 0) := rfl
  have hHeader :
      IsStatement false 1
        (name ++ " = DataLoader(upstream_dataset,") :=
    isStatement_own hName (.literal _) rfl rfl rfl
  apply Code.IsBody.continued hUnit hHeader
  simp only [Code.texts, Code.textsOf, List.append_nil,
    List.cons_append, List.nil_append, List.map_cons,
    List.map_nil, counted?, hSize, hShuffle, hBlank]
  rfl

/- The code of an augmentation is a suite. -/
theorem isSuite_items
    (hUnit : Code.IsRoom unit)
    (hName : Text.isName name)
    (hInput : Text.isName input)
    {steps : List String}
    (hSteps : ∀ step ∈ steps, IsStep step) :
    Code.IsSuite unit (items name input steps) := by
  have hBegin :
      Code.IsSuite unit
        [.line ("# Node: ImageAugmentation " ++ name),
          .line "aug_transforms = []"] := by
    refine .idle hUnit ?_
      (.line hUnit (isStatement_literal rfl) .nil)
    exact isIdleText_comment rfl (isLegible_of_isName hName)
  have hDataset :
      Code.IsSuite unit
        [.line ("aug_transforms.append("
            ++ "transforms.Resize((224, 224)))"),
          .line "aug_transforms.append(transforms.ToTensor())",
          .line ("augmentation_transform = "
            ++ "transforms.Compose(aug_transforms)"),
          .blank,
          .line "# Extract dataset from the upstream DataLoader",
          .line ("upstream_dataset = " ++ input ++ ".dataset"),
          .line
            "upstream_dataset.transform = augmentation_transform",
          .blank] := by
    refine .line hUnit ?_ (.line hUnit ?_ (.line hUnit ?_
      (.blank hUnit (.idle hUnit ?_ (.line hUnit ?_
        (.line hUnit ?_ (.blank hUnit .nil)))))))
    · exact IsSpelled.isStatement
        (.append (.literal _) (.literal _)) rfl
    · exact isStatement_literal rfl
    · exact IsSpelled.isStatement
        (.append (.literal _) (.literal _)) rfl
    · exact IsSpelled.isIdleText (.literal _) rfl
    · exact isStatement_named hInput rfl rfl rfl rfl rfl
    · exact isStatement_literal rfl
  have hAll :=
    ((hBegin.append (isSuite_steps hUnit hSteps)).append
      hDataset).append (isBody_closing hUnit hName hInput).isSuite
  rw [List.append_assoc] at hAll
  exact hAll

end Augmentation

------------------------------------------------------------
-- Training Models
------------------------------------------------------------

namespace Training

/- Branches are a body if there is one statement in each. -/
theorem isBody_branches
    (hUnit : Code.IsRoom unit)
    {condition : List Char}
    (hIf :
      isFront
        (['i', 'f'] ++ [' '] ++ condition ++ [' ', '=', '=', ' ']))
    (hElif :
      isFront
        (['e', 'l', 'i', 'f'] ++ [' '] ++ condition
          ++ [' ', '=', '=', ' ']))
    {failure : String}
    (hFailure : IsStatement false 0 failure)
    {cases : List (String × String)}
    (hCases : ∀ entry ∈ cases, IsStatement false 0 entry.2)
    {word : String}
    (hWord : word = "if" ∨ word = "elif") :
    Code.IsBody unit
      (branches (String.ofList condition) failure word cases) := by
  induction cases generalizing word with
  | nil =>
      exact .block hUnit (isStatement_literal rfl)
        (.line hUnit hFailure .nil) .nil
  | cons entry cases ih =>
      rw [List.forall_mem_cons] at hCases
      have hHeader :
          IsStatement true 0
            (word ++ " " ++ String.ofList condition ++ " == "
              ++ Literal.text entry.1 ++ ":") := by
        rcases hWord with rfl | rfl
        · exact isStatement_condition
            (.append (.append (.append (.literal _) (.literal _))
              (.literal _)) (.literal _)) hIf entry.1
        · exact isStatement_condition
            (.append (.append (.append (.literal _) (.literal _))
              (.literal _)) (.literal _)) hElif entry.1
      exact .block hUnit hHeader
        (.line hUnit hCases.1 .nil)
        (ih hCases.2 (Or.inr rfl)).isSuite

/- The branches that build a model are a body. -/
theorem isBody_modelItems
    (hUnit : Code.IsRoom unit) :
    Code.IsBody unit modelItems := by
  refine isBody_branches hUnit rfl rfl ?_ ?_ (Or.inl rfl)
  · exact IsSpelled.isStatement
      (.append (.literal _) (.literal _)) rfl
  · simp only [models, List.map_cons, List.map_nil,
      List.forall_mem_cons]
    refine ⟨?_, ?_, ?_, ?_, List.forall_mem_nil _⟩
    all_goals
      exact IsSpelled.isStatement
        (.append (.append (.literal _) (.literal _))
          (.literal _)) rfl

/- The branches that build an optimizer are a body. -/
theorem isBody_optimizerItems
    (hUnit : Code.IsRoom unit) :
    Code.IsBody unit optimizerItems := by
  refine isBody_branches hUnit rfl rfl ?_ ?_ (Or.inl rfl)
  · exact IsSpelled.isStatement
      (.append (.literal _) (.literal _)) rfl
  · simp only [optimizers, List.map_cons, List.map_nil,
      List.forall_mem_cons]
    refine ⟨?_, ?_, ?_, List.forall_mem_nil _⟩
    all_goals
      exact IsSpelled.isStatement
        (.append (.literal _) (.append (.literal _) (.literal _)))
        rfl

/- The choices are given to names. -/
theorem isSuite_choices
    (hUnit : Code.IsRoom unit)
    (choices : Choices) :
    Code.IsSuite unit
      [.blank,
        .line "criterion = nn.CrossEntropyLoss()",
        .line ("learning_rate = "
          ++ Literal.binary choices.learningRate),
        .line ("epochs = " ++ Literal.integer choices.epochs),
        .blank,
        .line
          ("optimizer_type = " ++ Literal.text choices.optimizer),
        .line ("beta1 = " ++ Literal.binary choices.beta1),
        .line ("beta2 = " ++ Literal.binary choices.beta2),
        .line ("momentum = " ++ Literal.binary choices.momentum),
        .blank] := by
  refine .blank hUnit (.line hUnit ?_ (.line hUnit ?_
    (.line hUnit ?_ (.blank hUnit (.line hUnit ?_
      (.line hUnit ?_ (.line hUnit ?_ (.line hUnit ?_
        (.blank hUnit .nil)))))))))
  · exact isStatement_literal rfl
  · exact isStatement_value rfl rfl
      (isScalarText_binary choices.learningRate)
      (ends_binary choices.learningRate)
  · exact isStatement_value rfl rfl
      (isScalarText_integer choices.epochs)
      (ends_integer choices.epochs)
  · exact isStatement_value rfl rfl
      (isScalarText_text choices.optimizer)
      (ends_text choices.optimizer)
  · exact isStatement_value rfl rfl
      (isScalarText_binary choices.beta1)
      (ends_binary choices.beta1)
  · exact isStatement_value rfl rfl
      (isScalarText_binary choices.beta2)
      (ends_binary choices.beta2)
  · exact isStatement_value rfl rfl
      (isScalarText_binary choices.momentum)
      (ends_binary choices.momentum)

/- The loop is a suite, with a loop over batches inside. -/
theorem isSuite_loopItems
    (hUnit : Code.IsRoom unit)
    {loader : String}
    (hLoader : Text.isName loader) :
    Code.IsSuite unit (loopItems loader) := by
  have hLiteral {letters : List Char}
      (hCheck : beginsStatement false 0 letters) :
      IsStatement false 0 (String.ofList letters) :=
    isStatement_literal hCheck
  have hBatch :
      Code.IsBody unit
        [.line ("datapoint, labels = datapoint.to(device), "
            ++ "labels.to(device)"),
          .line "temp_optimizer.zero_grad()",
          .line "outputs = temp_model(datapoint)",
          .line "loss = criterion(outputs, labels)",
          .line "loss.backward()",
          .line "temp_optimizer.step()",
          .line "running_loss += loss.item()"] := by
    refine .line hUnit (IsSpelled.isStatement
      (.append (.literal _) (.literal _)) rfl) ?_
    exact .line hUnit (hLiteral rfl) (.line hUnit (hLiteral rfl)
      (.line hUnit (hLiteral rfl) (.line hUnit (hLiteral rfl)
        (.line hUnit (hLiteral rfl)
          (.line hUnit (hLiteral rfl) .nil)))))
  have hEpoch :
      Code.IsBody unit
        [.line "temp_model.train()",
          .line "running_loss = 0.0",
          .block ("for datapoint, labels in " ++ loader ++ ":")
            [.line ("datapoint, labels = datapoint.to(device), "
                ++ "labels.to(device)"),
              .line "temp_optimizer.zero_grad()",
              .line "outputs = temp_model(datapoint)",
              .line "loss = criterion(outputs, labels)",
              .line "loss.backward()",
              .line "temp_optimizer.step()",
              .line "running_loss += loss.item()"],
          .line ("avg_loss = running_loss / len(" ++ loader ++ ")"),
          .line ("print(f'Epoch [\x7bepoch+1\x7d/\x7bepochs\x7d], "
            ++ "Loss: \x7bavg_loss:.4f\x7d')")] := by
    refine .line hUnit (hLiteral rfl) (.line hUnit (hLiteral rfl)
      (.block hUnit ?_ hBatch (.line hUnit ?_
        (.line hUnit ?_ .nil))))
    · exact isStatement_named hLoader rfl rfl rfl rfl rfl
    · exact isStatement_named hLoader rfl rfl rfl rfl rfl
    · exact IsSpelled.isStatement
        (.append (.literal _) (.literal _)) rfl
  refine .line hUnit (hLiteral rfl) (.line hUnit ?_
    (.block hUnit (isStatement_literal rfl) hEpoch .nil))
  exact IsSpelled.isStatement
    (.append (.literal _) (.literal _)) rfl

/- The code of a training is a suite. -/
theorem isSuite_items
    {request : Request}
    (hUnit : Code.IsRoom unit)
    (hName : Text.isName request.name)
    (hInput : Text.isName request.primaryInput)
    (choices : Choices) :
    Code.IsSuite unit (items request choices) := by
  have hBegin :
      Code.IsSuite unit
        [.line ("# Node: ModelTraining " ++ request.name),
          .line
            ("model_type = " ++ Literal.text choices.model)] := by
    refine .idle hUnit ?_ (.line hUnit ?_ .nil)
    · exact isIdleText_comment rfl (isLegible_of_isName hName)
    · exact isStatement_value rfl rfl
        (isScalarText_text choices.model) (ends_text choices.model)
  have hDevice :
      Code.IsSuite unit
        (if request.layout.bindsDevice then
          []
        else
          [.line deviceSetup]) := by
    split
    · exact .nil
    · exact .line hUnit (IsSpelled.isStatement
        (.append (.literal _) (.literal _)) rfl) .nil
  have hEnd :
      Code.IsSuite unit
        [.blank,
          .line "print('Training complete!')",
          .line (request.name ++ " = temp_model"),
          .blank] :=
    .blank hUnit (.line hUnit (isStatement_literal rfl)
      (.line hUnit
        (isStatement_own hName (.literal _) rfl rfl rfl)
        (.blank hUnit .nil)))
  exact ((((((hBegin.append
    (isBody_modelItems hUnit).isSuite).append
    (isSuite_choices hUnit choices)).append
    (isBody_optimizerItems hUnit).isSuite).append
    (.blank hUnit .nil)).append hDevice).append
    (isSuite_loopItems hUnit hInput)).append hEnd

end Training

------------------------------------------------------------
-- All Blocks
------------------------------------------------------------

namespace Request

variable {request : Request}

/- The code of an unhandled node is a suite. -/
theorem isSuite_unhandledItems
    (hUnit : Code.IsRoom unit)
    (hName : Text.isName request.name) :
    Code.IsSuite unit request.unhandledItems := by
  have hTag :
      ∀ c ∈ (Literal.comment request.kind.tag
          ++ " (unhandled)").toList, isLegible c := by
    rw [String.toList_append, List.forall_mem_append]
    exact ⟨fun _ hMem => isLegible_of_mem_comment hMem,
      List.all_eq_true.mp (by decide)⟩
  refine .idle hUnit ?_ (.idle hUnit ?_ (.line hUnit ?_
    (.blank hUnit .nil)))
  · rw [String.append_assoc]
    exact isIdleText_comment rfl hTag
  · exact IsSpelled.isIdleText
      (.append (.literal _) (.literal _)) rfl
  · exact isStatement_own hName (.literal _) rfl rfl rfl

/- Whatever a node becomes, its code is a suite. -/
theorem isSuite_of_becomes
    {items : List Code.Item}
    (hBecomes : request.Becomes items)
    (hUnit : Code.IsRoom unit)
    (hName : Text.isName request.name)
    (hInput : Text.isName request.primaryInput) :
    Code.IsSuite unit items := by
  cases hBecomes with
  | loader choices _ =>
      exact DataLoading.isSuite_items hUnit hName choices
  | augmentation steps _ hSteps =>
      exact Augmentation.isSuite_items hUnit hName hInput hSteps
  | training choices _ =>
      exact Training.isSuite_items hUnit hName hInput choices
  | unhandled tag isNew _ =>
      exact isSuite_unhandledItems hUnit hName

end Request

------------------------------------------------------------
-- Code in the Routine
------------------------------------------------------------

namespace Code

/- The lines of items behind the lines of other items. -/
theorem render_append
    (unit : String)
    (first second : List Item) :
    render unit (first ++ second) =
      render unit first ++ render unit second := by
  rw [render_eq_map, render_eq_map, render_eq_map,
    entries_append, List.map_append]

/- A line one level deeper has one more unit in front of it. -/
theorem bodyLine_lineAt
    (unit : String)
    (entry : Nat × String) :
    Layout.bodyLine unit (lineAt unit entry) =
      lineAt unit (1 + entry.1, entry.2) := by
  by_cases hEmpty : entry.2.isEmpty
  · simp [lineAt, hEmpty, Layout.bodyLine]
  · have hLine :
        (Writer.indented unit entry.1 entry.2).isEmpty = false := by
      rw [← Bool.not_eq_true, String.isEmpty_iff]
      intro hNone
      apply hEmpty
      rw [Writer.indented, String.append_eq_empty_iff] at hNone
      rw [hNone.2]
      rfl
    simp only [lineAt, if_neg hEmpty, Layout.bodyLine, hLine]
    apply String.toList_injective
    simp [Writer.indented, Nat.add_comm 1, List.replicate_succ]

/- A text at the first level has one unit in front of it. -/
theorem lineAt_one
    (unit : String)
    {text : String}
    (hSome : text ≠ "") :
    lineAt unit (1, text) = unit ++ text := by
  have hLine := bodyLine_lineAt unit (0, text)
  rw [lineAt_zero, Layout.bodyLine,
    if_neg (mt String.isEmpty_iff.mp hSome)] at hLine
  exact hLine.symm

/- Lines are put into the routine by writing them deeper. -/
theorem map_bodyLine_render
    (unit : String)
    (items : List Item) :
    (render unit items).map (Layout.bodyLine unit) =
      (entries 1 items).map (lineAt unit) := by
  rw [render_eq_map, List.map_map, entries_add 1 0 items,
    List.map_map]
  exact List.map_congr_left fun entry _ =>
    bodyLine_lineAt unit entry

end Code

namespace Layout

variable {settings : Settings} {items : List Code.Item}

/- The choice of a device as code. -/
def deviceItems (settings : Settings) : List Code.Item :=
  if settings.deviceSetup then
    [.line deviceSetup, .blank]
  else
    []

/- The routine around some code, and its call. -/
def routine
    (settings : Settings)
    (items : List Code.Item) : List Code.Item :=
  [.block ("def " ++ settings.entrypoint ++ "():")
      (deviceItems settings ++ items
        ++ [.line completionMessage]),
    .blank,
    .blank,
    .block "if __name__ == '__main__':"
      [.line (settings.entrypoint ++ "()")]]

/- The choice of a device is written like a block. -/
theorem deviceLines_eq (settings : Settings) :
    deviceLines settings =
      (Code.entries 1 (deviceItems settings)).map
        (Code.lineAt settings.indent) := by
  unfold deviceLines deviceItems
  split
  · have hDevice :=
      Code.lineAt_one settings.indent
        (show deviceSetup ≠ "" by decide)
    rw [← hDevice]
    rfl
  · rfl

/- So are all lines around the blocks. -/
theorem lines_eq_render
    (settings : Settings)
    (items : List Code.Item) :
    routineLines settings (Code.render settings.indent items)
        ++ callLines settings =
      Code.render settings.indent (routine settings items) := by
  have hMessage :=
    Code.lineAt_one settings.indent
      (show completionMessage ≠ "" by decide)
  have hCall :=
    Code.lineAt_one settings.indent
      (show settings.entrypoint ++ "()" ≠ "" by simp)
  rw [← String.append_assoc] at hCall
  rw [routineLines, callLines, deviceLines_eq,
    Code.map_bodyLine_render, ← hMessage, ← hCall,
    Code.render_eq_map, routine]
  simp only [Code.entries, Code.entriesOf, Code.entries_append,
    List.map_append, List.map_cons, List.map_nil,
    List.append_assoc, List.cons_append, List.nil_append,
    Code.lineAt_zero]

/- The routine and its call are a suite if the code in it is. -/
theorem isBody_routine
    (hIndent : Settings.isIndent settings.indent)
    (hEntry : Text.isName settings.entrypoint)
    (hItems : Code.IsSuite settings.indent items) :
    Code.IsBody settings.indent (routine settings items) := by
  have hUnit := Settings.isRoom hIndent
  have hDevice :
      Code.IsSuite settings.indent (deviceItems settings) := by
    unfold deviceItems
    split
    · exact .line hUnit (IsSpelled.isStatement
        (.append (.literal _) (.literal _)) rfl)
        (.blank hUnit .nil)
    · exact .nil
  have hMessage :
      Code.IsBody settings.indent [.line completionMessage] :=
    .line hUnit (isStatement_literal rfl) .nil
  have hCall :
      Code.IsBody settings.indent
        [.line (settings.entrypoint ++ "()")] :=
    .line hUnit
      (isStatement_own hEntry (.literal _) rfl rfl rfl) .nil
  refine .block hUnit ?_ ?_ (.blank hUnit (.blank hUnit
    (.block hUnit (isStatement_literal rfl) hCall .nil)))
  · exact isStatement_named hEntry rfl rfl rfl rfl rfl
  · exact (hDevice.append hItems).append_body hMessage

end Layout

------------------------------------------------------------
-- Scripts
------------------------------------------------------------

/-
  The lines of a script behind its remarks and imports, from
  the one that names the routine on. Those that count stand at
  levels that open and close blocks.
-/
structure Script.IsIndented
    (settings : Settings)
    (description : Description)
    (routine : String)
    (lines : List Lexis.Leveled)
    (script : Script) : Prop where
  text_eq :
    script.text =
      Text.unlines
          (Layout.headerLines description.remarks ++
            Layout.importLines script.imports) ++
        routine
  head_eq :
    (List.splitOn '\n' routine.toList).head? =
      some ("def " ++ settings.entrypoint ++ "():").toList
  counted_eq :
    Lexis.counted? 0 (List.splitOn '\n' routine.toList) =
      some (lines.map Prod.snd)
  isIndented : Lexis.IsIndented settings.indent.toList lines

namespace Script.IsMadeOf

variable {settings : Settings} {description : Description}
variable {graph : Graph} {blocks : List Block} {script : Script}

/- All blocks together are written as some suite. -/
theorem exists_items
    (hMade :
      script.IsMadeOf settings .standard description graph
        blocks)
    (hIndent : Settings.isIndent settings.indent) :
    ∃ items,
      (blocks.flatMap fun block => block.generated.lines) =
          Code.render settings.indent items ∧
        Code.IsSuite settings.indent items := by
  have hBlocks := hMade.made
  clear hMade
  induction blocks with
  | nil => exact ⟨[], rfl, .nil⟩
  | cons block blocks ih =>
      rw [List.forall_mem_cons] at hBlocks
      rcases ih hBlocks.2 with ⟨behind, hBehind, hSuite⟩
      rcases (Registry.becomes_of_generate
          hBlocks.1.generated_eq).1 with
        ⟨items, hBecomes, hLines⟩
      have hName : Text.isName block.name :=
        isName_nodeName block.node.kind block.node.id
      have hInput : Text.isName block.primaryInput :=
        hBlocks.1.isName_primaryInput.1
      have hOwn : Code.IsSuite settings.indent items :=
        Request.isSuite_of_becomes hBecomes
          (Settings.isRoom hIndent) hName hInput
      refine ⟨items ++ behind, ?_, hOwn.append hSuite⟩
      rw [List.flatMap_cons, hBehind, Code.render_append, hLines]
      rfl

/- All lines of the routine and its call are legible. -/
theorem isLegibleText_routine
    (hMade :
      script.IsMadeOf settings .standard description graph
        blocks)
    (hCheck : settings.check.outcome = .ok ()) :
    ∀ line ∈
        Layout.routineLines settings
            (blocks.flatMap fun block => block.generated.lines)
          ++ Layout.callLines settings,
      Lexis.IsLegibleText line := by
  have hIndent := (Settings.check_eq_ok_iff.mp hCheck).1
  rcases Settings.isLegibleText_of_check hCheck with
    ⟨hUnit, hName⟩
  rw [List.forall_mem_append]
  exact ⟨Layout.isLegibleText_routine hUnit hName
      (hMade.isLegibleText_body hIndent),
    Layout.isLegibleText_call hUnit hName⟩

/- What is behind the imports is indented as it should be. -/
theorem exists_isIndented
    (hMade :
      script.IsMadeOf settings .standard description graph
        blocks)
    (hCheck : settings.check.outcome = .ok ()) :
    ∃ routine lines,
      script.IsIndented settings description routine lines := by
  rcases Settings.check_eq_ok_iff.mp hCheck with
    ⟨hIndent, hEntry⟩
  have hName : Text.isName settings.entrypoint :=
    (Bool.and_eq_true_iff.mp hEntry).1
  rcases hMade.exists_items hIndent with
    ⟨items, hItems, hSuite⟩
  rcases Layout.isBody_routine hIndent hName hSuite 0 with
    ⟨lines, hCounted, hLines, -⟩
  rw [← Code.render_eq_map, ← Layout.lines_eq_render, ← hItems]
    at hCounted
  have hSplit :=
    Text.splitOn_unlines_of_isLegibleText
      (hMade.isLegibleText_routine hCheck)
  have hSome : settings.indent.toList ≠ [] := by
    rw [Ne, String.toList_eq_nil_iff, ← String.length_eq_zero_iff]
    exact Nat.ne_of_gt (Settings.length_pos hIndent)
  have hBlank :
      ∀ c ∈ settings.indent.toList, Text.isBlank c = true :=
    fun c hMem =>
      Code.isBlank_of_isRoom (Settings.isRoom hIndent c hMem)
  refine ⟨Text.unlines
    (Layout.routineLines settings
        (blocks.flatMap fun block => block.generated.lines)
      ++ Layout.callLines settings),
    lines, ?_, ?_, ?_, hLines.isIndented hSome hBlank⟩
  · rw [hMade.text_eq, Layout.lines, List.append_assoc,
      Text.unlines_append]
  · rw [hSplit]
    rfl
  · have hEnd : Lexis.counted? 0 [[]] = some [] := rfl
    have hAll := Lexis.counted?_append hCounted hEnd
    rw [List.append_nil] at hAll
    rw [hSplit, List.map_append]
    exact hAll

end Script.IsMadeOf

namespace Compiler

/-
  The routine of a script and its call are indented as they
  should be, for every indent that the settings allow, and for
  whatever blocks the description asks for.
-/
theorem indentation_of_compile
    (settings : Settings)
    (description : Description)
    (script : Script)
    (hCompile :
      ((ofSettings settings).compile description).outcome =
        .ok script) :
    ∃ routine lines,
      script.IsIndented settings description routine lines := by
  rcases exists_isMadeOf hCompile with ⟨graph, blocks, hMade⟩
  exact hMade.exists_isIndented (check_of_compile hCompile)

/- A chain of three nodes, with a tab and a space for a unit. -/
theorem indentation_of_chain :
    let settings := { Settings.standard with indent := "\t " }
    let loaded :=
      (Description.empty.putNode ⟨"a"⟩ "DataLoader" .empty
        ).putNode ⟨"b"⟩ "ImageAugmentation" .empty
    let chain :=
      ((loaded.putNode ⟨"c"⟩ "ModelTraining" .empty
        ).connect ⟨"a"⟩ ⟨"b"⟩).connect ⟨"b"⟩ ⟨"c"⟩
    ∃ script,
      ((ofSettings settings).compile chain).outcome =
          .ok script ∧
        ∃ routine lines,
          script.IsIndented settings chain routine lines := by
  intro settings loaded chain
  have hCompile :
      ∃ script,
        ((ofSettings settings).compile chain).outcome =
          .ok script := by
    apply exists_compile_of_rank fun id =>
      if id.text = "a" then 0 else if id.text = "b" then 1 else 2
    · exact Settings.check_eq_ok_iff.mpr ⟨by decide, by decide⟩
    · rfl
    · decide
    · decide
    · exact ⟨by decide, by decide⟩
  rcases hCompile with ⟨script, hScript⟩
  exact ⟨script, hScript,
    indentation_of_compile settings chain script hScript⟩

end Compiler

end PipelineScript
