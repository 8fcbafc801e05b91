import PipelineScript.Proofs.Script.Course
import PipelineScript.Proofs.Script.Generators
import PipelineScript.Proofs.Script.NodeNames

/-
  Which blocks raise an error when they are followed.

  Of the choices of a training, the model and the optimizer
  are looked for among branches, and an error is raised if
  none of them is taken. No other block raises an error.

  Key definitions include:
    * `Training.IsSupported`

  Key theorems include:
    * `Course.runAt_branches`
    * `Training.leadsOn_or_fails`
    * `Request.Becomes.leadsOn`
-/

namespace PipelineScript

namespace Course

variable {lower : String → String} {state : State}
variable {failure name : String} {width : Nat}

------------------------------------------------------------
-- Chains of Branches
------------------------------------------------------------

/- A line at the margin is not skipped. -/
theorem followAt_zero
    {letters : List Char}
    (hSome : letters ≠ []) :
    followAt lower state 0 letters =
      act lower state.resume 0 (deedOf letters) := by
  simp [followAt, hSome]

/- A line is followed where no branch is skipped. -/
theorem followAt_resume
    {letters : List Char}
    (hSome : letters ≠ [])
    (indent : Nat) :
    followAt lower state.resume indent letters =
      act lower state.resume indent (deedOf letters) := by
  simp [followAt, State.resume, hSome]

/- A line below a header that is skipped is skipped. -/
theorem followAt_skip
    {indent other : Nat}
    (hBelow : indent < other)
    (letters : List Char) :
    followAt lower (state.skip indent) other letters =
      .ok (state.skip indent) := by
  unfold followAt
  split
  · rfl
  · simp [State.skip, hBelow]

/- A header with one line below it. -/
theorem runAt_block
    (header text : String)
    (rest : List (Nat × String)) :
    runAt lower width state
        (Code.entriesOf 0 (.block header [.line text]) ++ rest) =
      followAt lower state 0 header.toList >>= fun middle =>
        followAt lower middle width text.toList >>= fun next =>
          runAt lower width next rest := by
  simp [runAt, Code.entriesOf, Code.entries]

/- The entries of a chain, from its first branch on. -/
theorem entries_branches
    (condition word : String)
    (cases : List (String × String)) :
    Code.entries 0
        (Training.branches condition failure word cases) =
      match cases with
      | [] =>
          Code.entriesOf 0 (.block "else:" [.line failure]) ++ []
      | (value, text) :: rest =>
          Code.entriesOf 0
              (.block
                (word ++ " " ++ condition ++ " == "
                  ++ Literal.text value ++ ":")
                [.line text])
            ++ Code.entries 0
              (Training.branches condition failure "elif"
                rest) := by
  cases cases <;> rfl

/- The last branch is skipped if another one was taken. -/
theorem followAt_else :
    followAt lower state 0 "else:".toList =
      if 0 ∈ state.taken then
        .ok (state.skip 0)
      else
        .ok state.resume := by
  have hDeed : deedOf "else:".toList = .otherwise := rfl
  rw [followAt_zero (by simp), hDeed, act]
  by_cases hTaken : 0 ∈ state.taken
  · rw [if_pos (by simpa [State.resume] using hTaken),
      if_pos hTaken]
    rfl
  · rw [if_neg (by simpa [State.resume] using hTaken),
      if_neg hTaken]

/- A branch is skipped if another one was taken. -/
theorem followAt_branch_of_taken
    (hName : name.toList.all Text.isNamePart)
    (isLowered : Bool)
    (value : String)
    (hTaken : 0 ∈ state.taken) :
    followAt lower state 0
        ("elif" ++ " " ++ operand name isLowered ++ " == "
          ++ Literal.text value ++ ":").toList =
      .ok (state.skip 0) := by
  rw [followAt_zero (by simp), deedOf_branch (Or.inr rfl) hName,
    act, if_pos (by simpa [State.resume] using hTaken)]
  rfl

/- A branch that is tried is taken if it has the text. -/
theorem followAt_branch_of_open
    {word value : String}
    {isLowered : Bool}
    (hName : name.toList.all Text.isNamePart)
    (hValue :
      (state.values name).map
          (fun text => if isLowered then lower text else text) =
        some value)
    (hOpen : word = "if" ∨ word = "elif" ∧ 0 ∉ state.taken)
    (other : String) :
    followAt lower state 0
        (word ++ " " ++ operand name isLowered ++ " == "
          ++ Literal.text other ++ ":").toList =
      if value = other then
        .ok (state.resume.take 0)
      else
        .ok ((state.resume.leave 0).skip 0) := by
  have hTried :
      (!(word == "if") && state.taken.contains 0) = false := by
    rcases hOpen with rfl | ⟨-, hNone⟩
    · rfl
    · simp [hNone]
  have hHolds :
      holds? lower state.values (some ⟨name, isLowered, other⟩) =
        some (value == other) := by
    rcases Option.map_eq_some_iff.mp hValue with
      ⟨text, hText, rfl⟩
    simp [holds?, hText]
  rw [followAt_zero (by simp),
    deedOf_branch (hOpen.imp_right And.left) hName]
  simp only [act, State.resume, hTried, hHolds]
  by_cases hSame : value = other
  · rw [beq_iff_eq.mpr hSame, if_pos hSame]
    rfl
  · rw [beq_eq_false_iff_ne.mpr hSame, if_neg hSame]
    rfl

/- Behind a branch that was taken, all others are skipped. -/
theorem runAt_branches_of_taken
    {isLowered : Bool}
    {cases : List (String × String)}
    (hWidth : 0 < width)
    (hName : name.toList.all Text.isNamePart)
    (hTaken : 0 ∈ state.taken) :
    runAt lower width state
        (Code.entries 0
          (Training.branches (operand name isLowered) failure
            "elif" cases)) =
      .ok (state.skip 0) := by
  induction cases generalizing state with
  | nil =>
      rw [entries_branches, runAt_block, followAt_else,
        if_pos hTaken]
      simp only [bind, Except.bind, followAt_skip hWidth]
      rfl
  | cons branch cases ih =>
      rcases branch with ⟨value, text⟩
      rw [entries_branches, runAt_block,
        followAt_branch_of_taken hName isLowered value hTaken]
      simp only [bind, Except.bind, followAt_skip hWidth]
      exact ih hTaken

/-
  A chain of branches leads on if the text that it compares
  has a branch, and else it raises an error.
-/
theorem runAt_branches
    {word : String}
    {isLowered : Bool}
    {cases : List (String × String)}
    {value : String}
    (hWidth : 0 < width)
    (hName : name.toList.all Text.isNamePart)
    (hFailure : deedOf failure.toList = .fail)
    (hQuiet : ∀ branch ∈ cases, IsQuiet branch.2)
    (hValue :
      (state.values name).map
          (fun text => if isLowered then lower text else text) =
        some value)
    (hOpen :
      word = "if" ∧ cases ≠ [] ∨
        word = "elif" ∧ 0 ∉ state.taken) :
    (value ∈ cases.map Prod.fst →
        ∃ next,
          runAt lower width state
              (Code.entries 0
                (Training.branches (operand name isLowered)
                  failure word cases)) =
            .ok next) ∧
      (value ∉ cases.map Prod.fst →
        runAt lower width state
            (Code.entries 0
              (Training.branches (operand name isLowered)
                failure word cases)) =
          .error .raised) := by
  induction cases generalizing state word with
  | nil =>
      have hNone : 0 ∉ state.taken := by
        rcases hOpen with ⟨-, hSome⟩ | ⟨-, hNone⟩
        · exact absurd rfl hSome
        · exact hNone
      have hFail :
          followAt lower state.resume width failure.toList =
            .error .raised := by
        have hSome : failure.toList ≠ [] := by
          intro hEmpty
          rw [hEmpty] at hFailure
          exact absurd hFailure (by decide)
        rw [followAt_resume hSome, hFailure]
        rfl
      refine ⟨by simp, fun _ => ?_⟩
      rw [entries_branches, runAt_block, followAt_else,
        if_neg hNone]
      simp only [bind, Except.bind, hFail]
  | cons branch cases ih =>
      rcases branch with ⟨other, text⟩
      rw [List.forall_mem_cons] at hQuiet
      rw [entries_branches, runAt_block,
        followAt_branch_of_open hName hValue
          (hOpen.imp_left And.left) other]
      by_cases hSame : value = other
      · -- The branch is taken, and all others are skipped.
        rcases exists_followAt_of_isQuiet lower hQuiet.1
            (state.resume.take 0) width with
          ⟨next, hNext, hTaken, -⟩
        have hZero : 0 ∈ next.taken := by
          rw [hTaken]
          exact List.mem_cons_self
        refine ⟨fun _ => ⟨next.skip 0, ?_⟩, fun hNew => ?_⟩
        · rw [if_pos hSame]
          simp only [bind, Except.bind, hNext]
          exact runAt_branches_of_taken hWidth hName hZero
        · exact absurd (by simp [hSame]) hNew
      · -- The branch is skipped, and the next one is tried.
        have hMem :
            value ∈ ((other, text) :: cases).map Prod.fst ↔
              value ∈ cases.map Prod.fst := by
          simp [hSame]
        have hNone :
            0 ∉ ((state.resume.leave 0).skip 0).taken := by
          simp [State.leave, State.skip]
        rw [if_neg hSame, hMem]
        simp only [bind, Except.bind, followAt_skip hWidth]
        exact ih hQuiet.2 hValue (Or.inr ⟨rfl, hNone⟩)

/- A name that was given a text keeps it behind other lines. -/
theorem exists_runAt_assignment
    (lower : String → String)
    (width : Nat)
    (state : State)
    {before after : List (Nat × String)}
    (hName : name.toList.all Text.isNamePart)
    (hWord : name ∉ keywords)
    (value : String)
    (hQuiet :
      ∀ entry ∈
          before ++
            (0, name ++ " = " ++ Literal.text value) :: after,
        IsQuiet entry.2)
    (hFree : ∀ entry ∈ after, ¬ Binds entry.2 name) :
    ∃ next,
      runAt lower width state
          (before ++
            (0, name ++ " = " ++ Literal.text value) :: after) =
        .ok next ∧
        next.values name = some value := by
  rw [List.forall_mem_append, List.forall_mem_cons] at hQuiet
  rcases exists_runAt_of_isQuiet lower hQuiet.1 width state with
    ⟨middle, hMiddle, -⟩
  rcases exists_runAt_of_isQuiet lower hQuiet.2.2 width
      (middle.resume.bind name (some value)) with
    ⟨next, hNext, hKept⟩
  have hBound :
      followAt lower middle 0
          (name ++ " = " ++ Literal.text value).toList =
        .ok (middle.resume.bind name (some value)) := by
    rw [followAt_zero (by simp), deedOf_assignment hName hWord,
      readText?_text]
    rfl
  refine ⟨next, ?_, ?_⟩
  · rw [runAt_append_of_ok hMiddle, runAt, List.foldlM_cons,
      Nat.zero_mul, hBound]
    exact hNext
  · rw [hKept name hFree]
    exact if_pos rfl

end Course

------------------------------------------------------------
-- Blocks That Raise Nothing
------------------------------------------------------------

open Course

variable {name : String}

/- The code of a loader is quiet. -/
theorem DataLoading.isQuiet_items
    (hName : Text.isName name)
    (hMark : '_' ∈ name.toList)
    (choices : Choices) :
    ∀ text ∈ Code.texts (items name choices), IsQuiet text := by
  have hLast :
      IsQuiet
        (name ++ " = DataLoader(temp_dataset, "
          ++ "batch_size=batch_size, shuffle=shuffle)") := by
    rw [String.append_assoc]
    exact isQuiet_name hName hMark rfl
  simp only [items, Code.texts, Code.textsOf, List.cons_append,
    List.nil_append, List.forall_mem_cons]
  exact ⟨isQuiet_append rfl _, isQuiet_append rfl _,
    isQuiet_append rfl _, isQuiet_append rfl _,
    isQuiet_of_start rfl, isQuiet_of_start rfl,
    isQuiet_of_start rfl, isQuiet_of_start rfl,
    isQuiet_append rfl _, hLast, isQuiet_empty, by simp⟩

/- The code of an augmentation is quiet. -/
theorem Augmentation.isQuiet_items
    (hName : Text.isName name)
    (hMark : '_' ∈ name.toList)
    (input : String)
    (steps : List String) :
    ∀ text ∈ Code.texts (items name input steps),
      IsQuiet text := by
  have hSteps :
      ∀ text ∈
          Code.texts (steps.map fun step =>
            .line ("aug_transforms.append(" ++ step ++ ")")),
        IsQuiet text := by
    induction steps with
    | nil => simp [Code.texts]
    | cons step steps ih =>
        rw [List.map_cons, Code.texts, Code.textsOf,
          List.singleton_append, List.forall_mem_cons]
        exact ⟨isQuiet_around rfl _ _, ih⟩
  unfold items
  simp only [Code.texts_append, List.forall_mem_append]
  refine ⟨⟨?_, hSteps⟩, ?_⟩
  · simp only [Code.texts, Code.textsOf, List.cons_append,
      List.nil_append, List.forall_mem_cons]
    exact ⟨isQuiet_append rfl _, isQuiet_of_start rfl, by simp⟩
  · simp only [Code.texts, Code.textsOf, List.cons_append,
      List.nil_append, List.forall_mem_cons]
    exact ⟨isQuiet_of_start rfl, isQuiet_of_start rfl,
      isQuiet_of_start rfl, isQuiet_empty, isQuiet_of_start rfl,
      isQuiet_around rfl _ _, isQuiet_of_start rfl,
      isQuiet_empty, isQuiet_name hName hMark rfl,
      isQuiet_around rfl _ _, isQuiet_around rfl _ _,
      isQuiet_empty, by simp⟩

/- The code of a node that nothing is known about is quiet. -/
theorem Request.isQuiet_unhandledItems
    {request : Request}
    (hName : Text.isName request.name)
    (hMark : '_' ∈ request.name.toList) :
    ∀ text ∈ Code.texts request.unhandledItems,
      IsQuiet text := by
  simp only [Request.unhandledItems, Code.texts, Code.textsOf,
    List.cons_append, List.nil_append, List.forall_mem_cons]
  exact ⟨isQuiet_around rfl _ _, isQuiet_of_start rfl,
    isQuiet_name hName hMark rfl, isQuiet_empty, by simp⟩

------------------------------------------------------------
-- Trainings
------------------------------------------------------------

namespace Training

variable {request : Request} {choices : Choices}
variable {lower : String → String} {state : State}
variable {width : Nat}

/- The script can build the model and the optimizer. -/
def IsSupported (choices : Choices) : Prop :=
  Text.lowerCase choices.model ∈ models ∧
    choices.optimizer ∈ optimizers.map Prod.fst

/- A loop over the images of a loader is quiet. -/
theorem isQuiet_loopItems (loader : String) :
    ∀ text ∈ Code.texts (loopItems loader), IsQuiet text := by
  simp only [loopItems, Code.texts, Code.textsOf,
    List.cons_append, List.nil_append, List.append_nil,
    List.forall_mem_cons]
  exact ⟨isQuiet_of_start rfl, isQuiet_of_start rfl,
    isQuiet_of_start rfl, isQuiet_of_start rfl,
    isQuiet_of_start rfl, isQuiet_around rfl _ _,
    isQuiet_of_start rfl,
    isQuiet_of_start rfl, isQuiet_of_start rfl,
    isQuiet_of_start rfl, isQuiet_of_start rfl,
    isQuiet_of_start rfl, isQuiet_of_start rfl,
    isQuiet_around rfl _ _, isQuiet_of_start rfl, by simp⟩

/- The lines in front of the branches for models. -/
def firstItems
    (request : Request)
    (choices : Choices) : List Code.Item :=
  [.line ("# Node: ModelTraining " ++ request.name),
    .line ("model_type = " ++ Literal.text choices.model)]

/- The lines between the branches. -/
def middleItems (choices : Choices) : List Code.Item :=
  [.blank,
    .line "criterion = nn.CrossEntropyLoss()",
    .line ("learning_rate = "
      ++ Literal.binary choices.learningRate),
    .line ("epochs = " ++ Literal.integer choices.epochs),
    .blank,
    .line ("optimizer_type = " ++ Literal.text choices.optimizer),
    .line ("beta1 = " ++ Literal.binary choices.beta1),
    .line ("beta2 = " ++ Literal.binary choices.beta2),
    .line ("momentum = " ++ Literal.binary choices.momentum),
    .blank]

/- The lines behind the branches for optimizers. -/
def lastItems (request : Request) : List Code.Item :=
  [.blank]
    ++ (if request.layout.bindsDevice then
        []
      else
        [.line deviceSetup])
    ++ loopItems request.primaryInput
    ++ [.blank,
      .line "print('Training complete!')",
      .line (request.name ++ " = temp_model"),
      .blank]

/- The branches stand between lines that are quiet. -/
theorem items_eq
    (request : Request)
    (choices : Choices) :
    items request choices =
      firstItems request choices ++ modelItems
        ++ (middleItems choices ++ optimizerItems)
        ++ lastItems request := by
  simp only [items, firstItems, middleItems, lastItems,
    List.append_assoc]

/- The lines in front of the branches are quiet. -/
theorem isQuiet_firstItems
    (request : Request)
    (choices : Choices) :
    ∀ text ∈ Code.texts (firstItems request choices),
      IsQuiet text := by
  simp only [firstItems, Code.texts, Code.textsOf,
    List.cons_append, List.nil_append, List.forall_mem_cons]
  exact ⟨isQuiet_append rfl _, isQuiet_append rfl _, by simp⟩

/- The lines between the branches are quiet. -/
theorem isQuiet_middleItems (choices : Choices) :
    ∀ text ∈ Code.texts (middleItems choices),
      IsQuiet text := by
  simp only [middleItems, Code.texts, Code.textsOf,
    List.cons_append, List.nil_append, List.forall_mem_cons]
  exact ⟨isQuiet_empty, isQuiet_of_start rfl,
    isQuiet_append rfl _, isQuiet_append rfl _, isQuiet_empty,
    isQuiet_append rfl _, isQuiet_append rfl _,
    isQuiet_append rfl _, isQuiet_append rfl _, isQuiet_empty,
    by simp⟩

/- The first lines give the model to its name. -/
theorem exists_run_firstItems
    (lower : String → String)
    (width : Nat)
    (state : State)
    (request : Request)
    (choices : Choices) :
    ∃ next,
      runAt lower width state
          (Code.entries 0 (firstItems request choices)) =
        .ok next ∧
        next.values "model_type" = some choices.model := by
  have hSign : "model_type = " = "model_type" ++ " = " := rfl
  have hName : "model_type".toList.all Text.isNamePart := rfl
  have hEntries :
      Code.entries 0 (firstItems request choices) =
        [(0, "# Node: ModelTraining " ++ request.name)] ++
          [(0, "model_type" ++ " = "
            ++ Literal.text choices.model)] := by
    rw [← hSign]
    rfl
  have hQuiet :=
    Code.forall_mem_entries (isQuiet_firstItems request choices) 0
  rw [hEntries] at hQuiet ⊢
  exact exists_runAt_assignment lower width state hName
    (by decide) choices.model hQuiet (List.forall_mem_nil _)

/- The lines between give the optimizer to its name. -/
theorem exists_run_middleItems
    (lower : String → String)
    (width : Nat)
    (state : State)
    (choices : Choices) :
    ∃ next,
      runAt lower width state
          (Code.entries 0 (middleItems choices)) =
        .ok next ∧
        next.values "optimizer_type" =
          some choices.optimizer := by
  have hSign :
      "optimizer_type = " = "optimizer_type" ++ " = " := rfl
  have hName : "optimizer_type".toList.all Text.isNamePart := rfl
  have hEntries :
      Code.entries 0 (middleItems choices) =
        [(0, ""), (0, "criterion = nn.CrossEntropyLoss()"),
            (0, "learning_rate = "
              ++ Literal.binary choices.learningRate),
            (0, "epochs = " ++ Literal.integer choices.epochs),
            (0, "")] ++
          (0, "optimizer_type" ++ " = "
              ++ Literal.text choices.optimizer) ::
            [(0, "beta1 = " ++ Literal.binary choices.beta1),
              (0, "beta2 = " ++ Literal.binary choices.beta2),
              (0, "momentum = "
                ++ Literal.binary choices.momentum),
              (0, "")] := by
    rw [← hSign]
    rfl
  have hQuiet :=
    Code.forall_mem_entries (isQuiet_middleItems choices) 0
  rw [hEntries] at hQuiet ⊢
  refine exists_runAt_assignment lower width state hName
    (by decide) choices.optimizer hQuiet ?_
  simp only [List.forall_mem_cons]
  exact ⟨not_binds_append rfl (by decide) _,
    not_binds_append rfl (by decide) _,
    not_binds_append rfl (by decide) _,
    fun hBinds => absurd hBinds.word_eq (by decide),
    List.forall_mem_nil _⟩

/- The lines behind the branches are quiet. -/
theorem isQuiet_lastItems
    (hName : Text.isName request.name)
    (hMark : '_' ∈ request.name.toList) :
    ∀ text ∈ Code.texts (lastItems request), IsQuiet text := by
  unfold lastItems
  simp only [Code.texts_append, List.forall_mem_append]
  refine ⟨⟨⟨?_, ?_⟩, ?_⟩, ?_⟩
  · simp only [Code.texts, Code.textsOf, List.append_nil,
      List.forall_mem_singleton]
    exact isQuiet_empty
  · split
    · simp [Code.texts]
    · simp only [Code.texts, Code.textsOf, List.append_nil,
        List.forall_mem_singleton]
      exact isQuiet_of_start rfl
  · exact isQuiet_loopItems request.primaryInput
  · simp only [Code.texts, Code.textsOf, List.cons_append,
      List.nil_append, List.forall_mem_cons]
    exact ⟨isQuiet_empty, isQuiet_of_start rfl,
      isQuiet_name hName hMark rfl, isQuiet_empty, by simp⟩

/- What builds a model is quiet. -/
theorem isQuiet_models :
    ∀ branch ∈
        models.map (fun model =>
          (model, "temp_model = torchvision.models." ++ model
            ++ "(weights=None)")),
      IsQuiet branch.2 := by
  rw [List.forall_mem_map]
  intro model _
  exact isQuiet_around rfl _ _

/- What builds an optimizer is quiet. -/
theorem isQuiet_optimizers :
    ∀ branch ∈
        optimizers.map (fun (name, call) =>
          (name, "temp_optimizer = " ++ call)),
      IsQuiet branch.2 := by
  rw [List.forall_mem_map]
  intro optimizer _
  exact isQuiet_append rfl _

/- The branches for models raise an error for any other. -/
theorem runAt_modelItems
    (lower : String → String)
    (hWidth : 0 < width)
    {model : String}
    (hModel : state.values "model_type" = some model) :
    (lower model ∈ models →
        ∃ next,
          runAt lower width state (Code.entries 0 modelItems) =
            .ok next) ∧
      (lower model ∉ models →
        runAt lower width state (Code.entries 0 modelItems) =
          .error .raised) := by
  have hName : "model_type".toList.all Text.isNamePart := rfl
  have hFailure :
      deedOf
          ("raise ValueError(f'Unsupported model: "
            ++ "\x7bmodel_type\x7d')").toList =
        .fail := rfl
  have hValue :
      (state.values "model_type").map
          (fun text => if true then lower text else text) =
        some (lower model) := by
    rw [hModel]
    rfl
  have hOperand :
      operand "model_type" true = "model_type.lower()" := rfl
  have hChain :=
    runAt_branches hWidth hName hFailure isQuiet_models hValue
      (Or.inl ⟨Eq.refl "if", by decide⟩)
  rw [hOperand] at hChain
  exact hChain

/- The branches for optimizers raise an error for any other. -/
theorem runAt_optimizerItems
    (lower : String → String)
    (hWidth : 0 < width)
    {optimizer : String}
    (hOptimizer :
      state.values "optimizer_type" = some optimizer) :
    (optimizer ∈ optimizers.map Prod.fst →
        ∃ next,
          runAt lower width state
              (Code.entries 0 optimizerItems) =
            .ok next) ∧
      (optimizer ∉ optimizers.map Prod.fst →
        runAt lower width state (Code.entries 0 optimizerItems) =
          .error .raised) := by
  have hName : "optimizer_type".toList.all Text.isNamePart := rfl
  have hFailure :
      deedOf
          ("raise ValueError(f'Unsupported optimizer type: "
            ++ "\x7boptimizer_type\x7d')").toList =
        .fail := rfl
  have hValue :
      (state.values "optimizer_type").map
          (fun text => if false then lower text else text) =
        some optimizer := by
    rw [hOptimizer]
    rfl
  have hOperand :
      operand "optimizer_type" false = "optimizer_type" := rfl
  have hChain :=
    runAt_branches hWidth hName hFailure isQuiet_optimizers
      hValue (Or.inl ⟨Eq.refl "if", by decide⟩)
  rw [hOperand] at hChain
  exact hChain

/-
  A training leads on if the script can build what it asks
  for, and else it raises an error.
-/
theorem runAt_items
    (hLower : ∀ text, lower text = Text.lowerCase text)
    (hWidth : 0 < width)
    (hName : Text.isName request.name)
    (hMark : '_' ∈ request.name.toList)
    (state : State) :
    (IsSupported choices →
        ∃ next,
          runAt lower width state
              (Code.entries 0 (items request choices)) =
            .ok next) ∧
      (¬ IsSupported choices →
        runAt lower width state
            (Code.entries 0 (items request choices)) =
          .error .raised) := by
  rw [items_eq, Code.entries_append, Code.entries_append,
    Code.entries_append, Code.entries_append, List.append_assoc,
    List.append_assoc, List.append_assoc]
  rcases exists_run_firstItems lower width state request
      choices with
    ⟨begun, hBegun, hModel⟩
  have hModels := runAt_modelItems lower hWidth hModel
  rw [hLower] at hModels
  rw [runAt_append_of_ok hBegun]
  by_cases hKnown : Text.lowerCase choices.model ∈ models
  · rcases hModels.1 hKnown with ⟨built, hBuilt⟩
    rcases exists_run_middleItems lower width built choices with
      ⟨chosen, hChosen, hOptimizer⟩
    have hOptimizers :=
      runAt_optimizerItems lower hWidth hOptimizer
    rw [runAt_append_of_ok hBuilt, runAt_append_of_ok hChosen]
    constructor
    · intro hSupported
      rcases hOptimizers.1 hSupported.2 with ⟨next, hNext⟩
      have hLast :=
        Code.forall_mem_entries (isQuiet_lastItems hName hMark) 0
      rcases exists_runAt_of_isQuiet lower hLast width next with
        ⟨done, hDone, -⟩
      exact ⟨done, by rw [runAt_append_of_ok hNext, hDone]⟩
    · intro hUnsupported
      have hOther :
          choices.optimizer ∉ optimizers.map Prod.fst :=
        fun hMem => hUnsupported ⟨hKnown, hMem⟩
      rw [runAt_append, hOptimizers.2 hOther]
      rfl
  · constructor
    · intro hSupported
      exact absurd hSupported.1 hKnown
    · intro _
      rw [runAt_append, hModels.2 hKnown]
      rfl

/- No branch of a chain begins with room. -/
theorem isFlush_branches
    {condition failure word : String}
    {cases : List (String × String)}
    (hWord : word = "if" ∨ word = "elif")
    (hFailure : IsFlush failure)
    (hCases : ∀ branch ∈ cases, IsFlush branch.2) :
    ∀ text ∈
        Code.texts (branches condition failure word cases),
      IsFlush text := by
  induction cases generalizing word with
  | nil =>
      simp only [branches, Code.texts, Code.textsOf,
        List.append_nil, List.forall_mem_cons]
      exact ⟨rfl, hFailure, by simp⟩
  | cons branch cases ih =>
      rcases branch with ⟨value, text⟩
      rw [List.forall_mem_cons] at hCases
      simp only [branches, Code.texts, Code.textsOf,
        List.cons_append, List.nil_append, List.forall_mem_cons]
      refine ⟨?_, hCases.1, ih (Or.inr rfl) hCases.2⟩
      rcases hWord with rfl | rfl
      · simp [IsFlush, Lexis.isRoom]
      · simp [IsFlush, Lexis.isRoom]

/- No line of a training begins with room by itself. -/
theorem isFlush_items
    (hName : Text.isName request.name)
    (hMark : '_' ∈ request.name.toList) :
    ∀ text ∈ Code.texts (items request choices),
      IsFlush text := by
  rw [items_eq]
  simp only [Code.texts_append, List.forall_mem_append]
  refine ⟨⟨⟨?_, ?_⟩, ?_, ?_⟩, ?_⟩
  · exact fun text hText =>
      (isQuiet_firstItems request choices text hText).isFlush
  · exact isFlush_branches (Or.inl rfl) rfl
      fun branch hBranch =>
        (isQuiet_models branch hBranch).isFlush
  · exact fun text hText =>
      (isQuiet_middleItems choices text hText).isFlush
  · exact isFlush_branches (Or.inl rfl) rfl
      fun branch hBranch =>
        (isQuiet_optimizers branch hBranch).isFlush
  · exact fun text hText =>
      (isQuiet_lastItems hName hMark text hText).isFlush

/-
  The lines of a training lead on if the script can build what
  they ask for, and else they fail.
-/
theorem leadsOn_or_fails
    (hLower : ∀ text, lower text = Text.lowerCase text)
    (hIndent : Settings.isIndent request.layout.indent)
    (hName : Text.isName request.name)
    (hMark : '_' ∈ request.name.toList)
    (choices : Choices) :
    (IsSupported choices →
        LeadsOn lower
          (request.render (items request choices))) ∧
      (¬ IsSupported choices →
        Fails lower
          (request.render (items request choices))) := by
  have hWidth := Settings.length_pos hIndent
  have hRun (state : State) :
      run lower state (request.render (items request choices)) =
        runAt lower request.layout.indent.length state
          (Code.entries 0 (items request choices)) :=
    run_render (Settings.isRoom hIndent)
      (isFlush_items hName hMark)
  constructor
  · intro hSupported state
    rw [hRun]
    exact (runAt_items hLower hWidth hName hMark state).1
      hSupported
  · intro hUnsupported state
    rw [hRun]
    exact (runAt_items hLower hWidth hName hMark state).2
      hUnsupported

end Training

/- Only the lines of a training can fail. -/
theorem Request.Becomes.leadsOn
    {request : Request}
    {items : List Code.Item}
    (hBecomes : request.Becomes items)
    (hKind : request.kind ≠ .modelTraining)
    (hIndent : Settings.isIndent request.layout.indent)
    (hName : Text.isName request.name)
    (hMark : '_' ∈ request.name.toList)
    (lower : String → String) :
    LeadsOn lower (request.render items) := by
  apply leadsOn_of_isQuiet lower (Settings.isRoom hIndent)
  cases hBecomes with
  | loader choices _ =>
      exact DataLoading.isQuiet_items hName hMark choices
  | augmentation steps _ _ =>
      exact Augmentation.isQuiet_items hName hMark
        request.primaryInput steps
  | training choices hTraining => exact absurd hTraining hKind
  | unhandled tag isNew _ =>
      exact Request.isQuiet_unhandledItems hName hMark

end PipelineScript
