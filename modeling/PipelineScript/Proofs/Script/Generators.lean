import PipelineScript.Proofs.Outcome
import PipelineScript.Script.Registry

/-
  What the generators make of nodes of every kind.

  Options never stop a generator: what cannot be used has a
  default. Only names that are checked strictly can.

  Key definitions include:
    * `NodeKind.generator`
    * `NodeKind.imports`
    * `Augmentation.IsStep`
    * `Request.Becomes`

  Key theorems include:
    * `Options.exists_getOr`
    * `Registry.generate_standard_eq_ok_iff`
    * `Registry.exists_generate_standard`
    * `Registry.becomes_of_generate`
-/

namespace PipelineScript

------------------------------------------------------------
-- Options
------------------------------------------------------------

namespace Options

/- An option always has a value, if only the default. -/
theorem exists_getOr
    {ε α : Type}
    (options : Options)
    (key : String)
    (expected : OptionKind)
    (default : α)
    (use? : Json.Value → Option α) :
    ∃ value,
      (options.getOr key expected default use? :
        Traced Event ε α).outcome = .ok value := by
  unfold getOr
  cases options.get? key with
  | none => exact ⟨default, rfl⟩
  | some found =>
      cases hUse : use? found with
      | none => exact ⟨default, by simp [hUse]⟩
      | some value => exact ⟨value, by simp [hUse]⟩

end Options

------------------------------------------------------------
-- Generators by Kind
------------------------------------------------------------

namespace NodeKind

/- The generator of a kind. -/
def generator : NodeKind → Generator
  | .dataLoader => .dataLoading
  | .imageAugmentation => .augmentation
  | .modelTraining => .training
  | .unknown _ _ => .placeholder

/- The imports that the blocks of a kind need. -/
def imports : NodeKind → List Directive
  | .dataLoader => DataLoading.imports
  | .imageAugmentation => Augmentation.imports
  | .modelTraining => Training.imports
  | .unknown _ _ => []

/- What holds for the imports of all generators. -/
theorem forall_mem_imports
    {p : Directive → Prop}
    (hLoader : ∀ request ∈ DataLoading.imports, p request)
    (hAugmentation : ∀ request ∈ Augmentation.imports, p request)
    (hTraining : ∀ request ∈ Training.imports, p request)
    (kind : NodeKind) :
    ∀ request ∈ kind.imports, p request := by
  cases kind with
  | dataLoader => exact hLoader
  | imageAugmentation => exact hAugmentation
  | modelTraining => exact hTraining
  | unknown _ _ => exact List.forall_mem_nil _

/- Every kind has its generator. -/
theorem resolve_standard (kind : NodeKind) :
    Registry.standard.resolve kind.tag = kind.generator := by
  cases kind with
  | dataLoader => rfl
  | imageAugmentation => rfl
  | modelTraining => rfl
  | unknown tag isNew =>
      have hNew := isNew
      simp only [knownTags, List.mem_cons, List.not_mem_nil,
        or_false, not_or] at hNew
      have hNone :
          (Table.empty : Table String Generator).get? tag = none :=
        rfl
      simp [Registry.resolve, Registry.standard,
        Registry.register, Registry.empty, Table.get?_insert,
        hNone, NodeKind.tag, generator, hNew.1, hNew.2.1,
        hNew.2.2]

end NodeKind

/- A block is made by the generator for its kind. -/
theorem Registry.generate_standard_eq_ok_iff
    {request : Request}
    {generated : Generated} :
    (standard.generate request).outcome = .ok generated ↔
      (request.kind.generator.generate request).outcome =
        .ok generated := by
  unfold generate
  rw [request.kind.resolve_standard]
  simp [Traced.outcome_bind_eq_ok]

------------------------------------------------------------
-- Steps of Augmentations
------------------------------------------------------------

namespace Augmentation

variable (options : Options)

/- The steps that options can make. -/
inductive IsStep : String → Prop where
  | rotation (n : Number) :
      IsStep
        ("transforms.RandomRotation(" ++ Literal.number n ++ ")")
  | flip : IsStep "transforms.RandomHorizontalFlip()"
  | flipChance (n : Number) :
      IsStep
        ("transforms.RandomHorizontalFlip(p="
          ++ Literal.number n ++ ")")
  | brightness (n : Number) :
      IsStep
        ("transforms.ColorJitter(brightness="
          ++ Literal.number n ++ ")")
  | crop (size : Json.Value) (scale : Option Json.Value) :
      IsStep (cropCall size scale)

/- An option becomes some list of the given calls. -/
def Makes
    (x : Traced Event CompileError (List String))
    (IsCall : String → Prop) : Prop :=
  ∃ steps, x.outcome = .ok steps ∧ ∀ step ∈ steps, IsCall step

/- An option with a number makes a call with the number. -/
theorem makes_positiveStep
    (key call : String) :
    Makes (positiveStep options key call) fun step =>
      ∃ n, step = call ++ Literal.number n ++ ")" := by
  have hPositive :
      ∃ found,
        (options.positive? key :
          Traced Event CompileError _).outcome = .ok found :=
    Options.exists_getOr options _ _ _ _
  rcases hPositive with ⟨found, hFound⟩
  cases found with
  | none =>
      refine ⟨[], Traced.outcome_bind_eq_ok.mpr
        ⟨none, hFound, rfl⟩, ?_⟩
      simp
  | some n =>
      refine ⟨[_], Traced.outcome_bind_eq_ok.mpr
        ⟨some n, hFound, rfl⟩, ?_⟩
      rw [List.forall_mem_singleton]
      exact ⟨n, rfl⟩

/- Weaker knowledge of the calls. -/
theorem Makes.imp
    {x : Traced Event CompileError (List String)}
    {IsCall IsOther : String → Prop}
    (hMakes : Makes x IsCall)
    (hImp : ∀ step, IsCall step → IsOther step) :
    Makes x IsOther := by
  rcases hMakes with ⟨steps, hSteps, hCalls⟩
  exact ⟨steps, hSteps, fun step hStep =>
    hImp step (hCalls step hStep)⟩

theorem makes_rotationStep :
    Makes (rotationStep options) IsStep := by
  apply (makes_positiveStep options _ _).imp
  rintro _ ⟨n, rfl⟩
  exact .rotation n

theorem makes_flipStep : Makes (flipStep options) IsStep := by
  unfold flipStep
  split
  · refine ⟨_, rfl, ?_⟩
    rw [List.forall_mem_singleton]
    exact .flip
  · apply (makes_positiveStep options _ _).imp
    rintro _ ⟨n, rfl⟩
    exact .flipChance n
  · exact ⟨[], rfl, by simp⟩

theorem makes_brightnessStep :
    Makes (brightnessStep options) IsStep := by
  apply (makes_positiveStep options _ _).imp
  rintro _ ⟨n, rfl⟩
  exact .brightness n

theorem makes_cropStep : Makes (cropStep options) IsStep := by
  have hCall (size : Json.Value) (scale : Option Json.Value) :
      ∀ step ∈ [cropCall size scale], IsStep step := by
    rw [List.forall_mem_singleton]
    exact .crop size scale
  unfold cropStep
  split
  · exact ⟨[], rfl, by simp⟩
  · exact ⟨[], rfl, by simp⟩
  · exact ⟨[], rfl, by simp⟩
  · exact ⟨_, rfl, hCall _ _⟩
  · split
    · exact ⟨[], rfl, by simp⟩
    · exact ⟨_, rfl, hCall _ _⟩
  · exact ⟨[], rfl, by simp⟩

/- Options become steps, whatever they are. -/
theorem makes_steps : Makes (steps options) IsStep := by
  rcases makes_rotationStep options with
    ⟨rotation, hRotation, hRotations⟩
  rcases makes_flipStep options with
    ⟨flip, hFlip, hFlips⟩
  rcases makes_brightnessStep options with
    ⟨brightness, hBrightness, hBrightnesses⟩
  rcases makes_cropStep options with
    ⟨crop, hCrop, hCrops⟩
  refine ⟨rotation ++ flip ++ brightness ++ crop, ?_, ?_⟩
  · simp [steps, Traced.outcome_bind_eq_ok, hRotation, hFlip,
      hBrightness, hCrop]
  · simp only [List.forall_mem_append]
    exact ⟨⟨⟨hRotations, hFlips⟩, hBrightnesses⟩, hCrops⟩

end Augmentation

------------------------------------------------------------
-- Choices of Loaders and Trainings
------------------------------------------------------------

/- The choices for a loader can always be made. -/
theorem DataLoading.exists_choose (options : Options) :
    ∃ choices, (choose options).outcome = .ok choices := by
  simp only [choose, Traced.outcome_bind_eq_ok,
    Traced.outcome_pure, Except.ok.injEq]
  rcases Options.exists_getOr options _ _ _ _ with
    ⟨path, hPath⟩
  rcases Options.exists_getOr options _ _ _ _ with
    ⟨size, hSize⟩
  rcases Options.exists_getOr options _ _ _ _ with
    ⟨flag, hFlag⟩
  exact ⟨_, path, hPath, size, hSize, flag, hFlag, rfl⟩

/- The choices for a training can always be made. -/
theorem Training.exists_choose (options : Options) :
    ∃ choices, (choose options).outcome = .ok choices := by
  simp only [choose, Traced.outcome_bind_eq_ok,
    Traced.outcome_pure, Except.ok.injEq]
  rcases Options.exists_getOr options _ _ _ _ with
    ⟨model, hModel⟩
  rcases Options.exists_getOr options _ _ _ _ with
    ⟨rate, hRate⟩
  rcases Options.exists_getOr options _ _ _ _ with
    ⟨epochs, hEpochs⟩
  rcases Options.exists_getOr options _ _ _ _ with
    ⟨inner, hInner⟩
  rcases Options.exists_getOr inner _ _ _ _ with
    ⟨kind, hKind⟩
  rcases Options.exists_getOr inner _ _ _ _ with
    ⟨beta1, hBeta1⟩
  rcases Options.exists_getOr inner _ _ _ _ with
    ⟨beta2, hBeta2⟩
  rcases Options.exists_getOr inner _ _ _ _ with
    ⟨momentum, hMomentum⟩
  exact ⟨_, model, hModel, rate, hRate, epochs, hEpochs, inner,
    hInner, kind, hKind, beta1, hBeta1, beta2, hBeta2, momentum,
    hMomentum, rfl⟩

/- Any names will do unless they are checked strictly. -/
theorem Training.check_eq_ok
    {request : Request}
    (hLoose : request.layout.isStrict = false)
    (choices : Choices) :
    check request choices = .ok () := by
  simp [check, checkName, hLoose, bind, Except.bind]

/- Reports do not stop a loader. -/
theorem DataLoading.outcome_reportInputs (request : Request) :
    (reportInputs request).outcome = .ok () := by
  unfold reportInputs
  split <;> rfl

/- Reports do not stop an augmentation. -/
theorem Augmentation.outcome_reportInputs (request : Request) :
    (reportInputs request).outcome = .ok () := by
  unfold reportInputs
  split <;> rfl

------------------------------------------------------------
-- Blocks by Kind
------------------------------------------------------------

namespace Request

/- The code of a node that nothing is known about. -/
def unhandledItems (request : Request) : List Code.Item :=
  [.line ("# Node: " ++ Literal.comment request.kind.tag
      ++ " (unhandled)"),
    .line ("# No code generator is registered for "
      ++ "this node type."),
    .line (request.name ++ " = None"),
    .blank]

/- The code that a node can become, kind by kind. -/
inductive Becomes (request : Request) : List Code.Item → Prop where
  | loader (choices : DataLoading.Choices)
      (hKind : request.kind = .dataLoader) :
      Becomes request (DataLoading.items request.name choices)
  | augmentation (steps : List String)
      (hKind : request.kind = .imageAugmentation)
      (hSteps : ∀ step ∈ steps, Augmentation.IsStep step) :
      Becomes request
        (Augmentation.items request.name request.primaryInput
          steps)
  | training (choices : Training.Choices)
      (hKind : request.kind = .modelTraining) :
      Becomes request (Training.items request choices)
  | unhandled (tag : String) (isNew : tag ∉ knownTags)
      (hKind : request.kind = .unknown tag isNew) :
      Becomes request request.unhandledItems

end Request

namespace Registry

variable {request : Request} {generated : Generated}

/- Every block consists of the code and imports of its kind. -/
theorem becomes_of_generate
    (hGenerate :
      (standard.generate request).outcome = .ok generated) :
    (∃ items, request.Becomes items ∧
      generated.lines = request.render items) ∧
        generated.imports = request.kind.imports := by
  rw [generate_standard_eq_ok_iff] at hGenerate
  cases hKind : request.kind with
  | dataLoader =>
      simp only [hKind, NodeKind.generator,
        Generator.dataLoading, Traced.outcome_bind_eq_ok,
        Traced.outcome_pure, Except.ok.injEq] at hGenerate
      rcases hGenerate with ⟨choices, -, _, -, rfl⟩
      exact ⟨⟨_, .loader choices hKind, rfl⟩, rfl⟩
  | imageAugmentation =>
      simp only [hKind, NodeKind.generator,
        Generator.augmentation, Traced.outcome_bind_eq_ok,
        Traced.outcome_pure, Except.ok.injEq] at hGenerate
      rcases hGenerate with ⟨_, -, steps, hOutcome, rfl⟩
      rcases Augmentation.makes_steps
          request.options with
        ⟨made, hMade, hSteps⟩
      rw [hOutcome, Except.ok.injEq] at hMade
      subst hMade
      exact ⟨⟨_, .augmentation steps hKind hSteps, rfl⟩, rfl⟩
  | modelTraining =>
      simp only [hKind, NodeKind.generator, Generator.training,
        Traced.outcome_bind_eq_ok, Traced.outcome_pure,
        Except.ok.injEq] at hGenerate
      rcases hGenerate with ⟨choices, -, _, -, rfl⟩
      exact ⟨⟨_, .training choices hKind, rfl⟩, rfl⟩
  | unknown tag isNew =>
      simp only [hKind, NodeKind.generator,
        Generator.placeholder, Except.ok.injEq] at hGenerate
      subst hGenerate
      refine ⟨⟨_, .unhandled tag isNew hKind, ?_⟩, rfl⟩
      rw [Request.unhandledItems, hKind]

/- Every node becomes a block if names are not strict. -/
theorem exists_generate_standard
    (hLoose : request.layout.isStrict = false) :
    ∃ generated,
      (standard.generate request).outcome = .ok generated := by
  simp only [generate_standard_eq_ok_iff]
  cases request.kind with
  | dataLoader =>
      rcases DataLoading.exists_choose request.options with
        ⟨choices, hChoices⟩
      refine ⟨_, Traced.outcome_bind_eq_ok.mpr
        ⟨choices, hChoices, Traced.outcome_bind_eq_ok.mpr
          ⟨(), ?_, rfl⟩⟩⟩
      exact DataLoading.outcome_reportInputs request
  | imageAugmentation =>
      rcases Augmentation.makes_steps
          request.options with
        ⟨steps, hSteps, -⟩
      refine ⟨_, Traced.outcome_bind_eq_ok.mpr
        ⟨(), ?_, Traced.outcome_bind_eq_ok.mpr
          ⟨steps, hSteps, rfl⟩⟩⟩
      exact Augmentation.outcome_reportInputs request
  | modelTraining =>
      rcases Training.exists_choose request.options with
        ⟨choices, hChoices⟩
      refine ⟨_, Traced.outcome_bind_eq_ok.mpr
        ⟨choices, hChoices, Traced.outcome_bind_eq_ok.mpr
          ⟨(), ?_, rfl⟩⟩⟩
      exact Training.check_eq_ok hLoose choices
  | unknown tag isNew => exact ⟨_, rfl⟩

end Registry

end PipelineScript
