import PipelineScript.Proofs.Description.Options
import PipelineScript.Proofs.Script.Generators
import PipelineScript.Proofs.Script.Rendering

/-
  Options that are `null` in the blocks of nodes.

  Generators read options one by one, and a `null` is read as
  nothing. The members of a mapping for cropping are looked up
  directly: a scale that is `null` is left out all the same,
  and a size that is `null` is put into the script.

  Key definitions include:
    * `Options.HasNullSize`

  Key theorems include:
    * `DataLoading.choose_withoutNulls`
    * `Training.choose_withoutNulls`
    * `Augmentation.cropStep_withoutNulls`
    * `Augmentation.steps_withoutNulls`
    * `Generator.augmentation_withoutNulls`
    * `NodeKind.generate_withoutNulls_iff`
-/

namespace PipelineScript

------------------------------------------------------------
-- Readers
------------------------------------------------------------

/- Only one value is `null`. -/
theorem Json.Value.isNull_iff
    {value : Json.Value} :
    value.isNull ↔ value = .null := by
  cases value <;> simp [isNull]

namespace Options

variable {ε α : Type} {options : Options}
variable (hKeys : options.toJson.HasDistinctKeys)

/- There is a mapping for cropping, and its size is `null`. -/
def HasNullSize (options : Options) : Prop :=
  ∃ members,
    options.get? "crop" = some (.object members) ∧
      members.lookup "size" = some .null

include hKeys

/- What is no section is read as with the nulls. -/
theorem getOr_withoutNulls
    {key : String}
    (hKey : key ∉ sections)
    (expected : OptionKind)
    (default : α)
    (use? : Json.Value → Option α) :
    (options.withoutNulls.getOr key expected default use? :
        Traced Event ε α) =
      options.getOr key expected default use? :=
  getOr_congr
    (get?_withoutNulls_of_not_mem (nodup_keys hKeys) hKey)
    expected default use?

/-
  What is read in a section is what is read there with the
  nulls, if it is read through the lookup.
-/
theorem sectionAt_withoutNulls_bind
    {key : String}
    (hKey : key ∈ sections)
    {next : Options → Traced Event ε α}
    (hNext :
      ∀ inner others : Options,
        (∀ key, inner.get? key = others.get? key) →
          next inner = next others) :
    options.withoutNulls.sectionAt key >>= next =
      options.sectionAt key >>= next := by
  unfold sectionAt getOr
  rw [get?_withoutNulls (nodup_keys hKeys)]
  cases hFound : options.get? key with
  | none => rfl
  | some value =>
      cases value with
      | object members =>
          simp only [Option.map_some, valueWithoutNulls,
            if_pos hKey]
          apply hNext
          exact get?_ofMembers_withoutNulls
            (nodup_keys_of_get? hKeys hFound)
      | null => rfl
      | boolean value => rfl
      | number value => rfl
      | text value => rfl
      | array items => rfl

end Options

------------------------------------------------------------
-- Loaders and Trainings
------------------------------------------------------------

variable {options : Options}

/- A loader is told the same without nulls. -/
theorem DataLoading.choose_withoutNulls
    (hKeys : options.toJson.HasDistinctKeys) :
    choose options.withoutNulls = choose options := by
  unfold choose Options.textOr Options.integerOr
    Options.booleanOr
  rw [Options.getOr_withoutNulls hKeys (by decide),
    Options.getOr_withoutNulls hKeys (by decide),
    Options.getOr_withoutNulls hKeys (by decide)]

/- And so is a training, in the section of its optimizer too. -/
theorem Training.choose_withoutNulls
    (hKeys : options.toJson.HasDistinctKeys) :
    choose options.withoutNulls = choose options := by
  unfold choose Options.textOr Options.integerOr
    Options.binaryOr
  rw [Options.getOr_withoutNulls hKeys (by decide),
    Options.getOr_withoutNulls hKeys (by decide),
    Options.getOr_withoutNulls hKeys (by decide)]
  congr 1
  funext model
  congr 1
  funext learningRate
  congr 1
  funext epochs
  apply Options.sectionAt_withoutNulls_bind hKeys (by decide)
  intro inner others hSame
  rw [Options.getOr_congr (hSame "type"),
    Options.getOr_congr (hSame "beta1"),
    Options.getOr_congr (hSame "beta2"),
    Options.getOr_congr (hSame "momentum")]

------------------------------------------------------------
-- Augmentations
------------------------------------------------------------

namespace Augmentation

/- The steps with a given step for cropping. -/
def stepsWith
    (options : Options)
    (cropping : Traced Event CompileError (List String)) :
    Traced Event CompileError (List String) := do
  let rotation ← rotationStep options
  let flip ← flipStep options
  let brightness ← brightnessStep options
  let crop ← cropping
  return rotation ++ flip ++ brightness ++ crop

/- All steps are those with the options' own step. -/
theorem steps_eq (options : Options) :
    steps options = stepsWith options (cropStep options) :=
  rfl

/- A step for cropping comes behind the same other steps. -/
theorem exists_stepsWith (options : Options) :
    ∃ events others, ∀ crop,
      stepsWith options (.done crop) =
        ⟨events, .ok (others ++ crop)⟩ := by
  rcases makes_rotationStep options with
    ⟨rotation, hRotation, -⟩
  rcases makes_flipStep options with ⟨flip, hFlip, -⟩
  rcases makes_brightnessStep options with
    ⟨brightness, hBrightness, -⟩
  refine ⟨(stepsWith options (.done [])).events,
    rotation ++ flip ++ brightness, ?_⟩
  intro crop
  simp only [stepsWith, Traced.bind_of_ok hRotation,
    Traced.bind_of_ok hFlip, Traced.bind_of_ok hBrightness]
  rfl

variable (hKeys : options.toJson.HasDistinctKeys)

/- A scale that is `null` is left out like one that is not there. -/
theorem cropCall_filter
    (size : Json.Value)
    (scale : Option Json.Value) :
    cropCall size (scale.filter (!·.isNull)) =
      cropCall size scale := by
  cases scale with
  | none => rfl
  | some value => cases value <;> rfl

include hKeys

/- A step with a positive number is the same without nulls. -/
theorem positiveStep_withoutNulls
    {key : String}
    (hKey : key ∉ Options.sections)
    (call : String) :
    positiveStep options.withoutNulls key call =
      positiveStep options key call := by
  unfold positiveStep Options.positive?
  rw [Options.getOr_withoutNulls hKeys hKey]

/- So is a step for flipping. -/
theorem flipStep_withoutNulls :
    flipStep options.withoutNulls = flipStep options := by
  unfold flipStep
  rw [Options.get?_withoutNulls_of_not_mem
      (Options.nodup_keys hKeys) (by decide),
    positiveStep_withoutNulls hKeys (by decide)]

/-
  So is a step for cropping, unless the size is `null`. Then
  there is a step with it, and none without.
-/
theorem cropStep_withoutNulls :
    (¬ options.HasNullSize →
        cropStep options.withoutNulls = cropStep options) ∧
      (options.HasNullSize →
        cropStep options.withoutNulls = .done [] ∧
          ∃ scale,
            cropStep options =
              .done [cropCall .null scale]) := by
  unfold cropStep Options.HasNullSize
  rw [Options.get?_withoutNulls (Options.nodup_keys hKeys)]
  cases hFound : options.get? "crop" with
  | none => simp
  | some value =>
      cases value with
      | object members =>
          have hSection : "crop" ∈ Options.sections := by decide
          have hInner := Options.nodup_keys_of_get? hKeys hFound
          simp only [Option.map_some, Options.valueWithoutNulls,
            if_pos hSection, Option.some.injEq,
            Json.Value.object.injEq, exists_eq_left',
            Entries.lookup_withoutNulls hInner]
          cases members.lookup "size" with
          | none => simp
          | some size =>
              cases hNull : size.isNull with
              | true =>
                  rw [Json.Value.isNull_iff.mp hNull]
                  refine ⟨fun hSize => absurd rfl hSize, ?_⟩
                  intro _
                  exact ⟨rfl, members.lookup "scale", rfl⟩
              | false =>
                  have hOther : some size ≠ some .null := by
                    rintro ⟨⟩
                    cases hNull
                  refine ⟨?_, fun hSize => absurd hSize hOther⟩
                  intro _
                  have hKept :
                      (some size).filter (!·.isNull) =
                        some size := by
                    simp [hNull]
                  simp only [hKept, cropCall_filter]
      | null => simp [Options.valueWithoutNulls]
      | boolean value => simp [Options.valueWithoutNulls]
      | number value => simp [Options.valueWithoutNulls]
      | text value => simp [Options.valueWithoutNulls]
      | array items => simp [Options.valueWithoutNulls]

/-
  So are all steps, unless the size is `null`. Then it makes
  one step more, and nothing else is reported.
-/
theorem steps_withoutNulls :
    (¬ options.HasNullSize →
        steps options.withoutNulls = steps options) ∧
      (options.HasNullSize →
        ∃ events others size,
          steps options.withoutNulls =
              ⟨events, .ok others⟩ ∧
            steps options =
              ⟨events, .ok (others ++ [size])⟩) := by
  rcases cropStep_withoutNulls hKeys with ⟨hSame, hOther⟩
  have hBefore :
      stepsWith options.withoutNulls = stepsWith options := by
    funext crop
    unfold stepsWith rotationStep brightnessStep
    rw [positiveStep_withoutNulls hKeys (by decide),
      flipStep_withoutNulls hKeys,
      positiveStep_withoutNulls hKeys (by decide)]
  rw [steps_eq, steps_eq, hBefore]
  refine ⟨fun hNone => by rw [hSame hNone], ?_⟩
  intro hSize
  rcases hOther hSize with ⟨hBare, scale, hCrop⟩
  rcases exists_stepsWith options with ⟨events, others, hWith⟩
  refine ⟨events, others, cropCall .null scale, ?_, ?_⟩
  · rw [hBare, hWith, List.append_nil]
  · rw [hCrop, hWith]

omit hKeys

/- Every step has a line of its own in a block. -/
theorem length_render_items
    (unit name input : String)
    (steps : List String) :
    (Code.render unit (items name input steps)).length =
      steps.length + 14 := by
  have hSteps :
      (Code.entries 0 (steps.map fun step =>
          .line ("aug_transforms.append(" ++ step ++ ")"))).length =
        steps.length := by
    induction steps with
    | nil => rfl
    | cons step steps ih =>
        simp [Code.entries, Code.entriesOf, ih]
  rw [Code.render_eq_map, List.length_map, items,
    Code.entries_append, Code.entries_append,
    List.length_append, List.length_append, hSteps]
  simp [Code.entries, Code.entriesOf]
  omega

end Augmentation

------------------------------------------------------------
-- Blocks
------------------------------------------------------------

/- An augmentation is what its steps make of the request. -/
theorem Generator.augmentation_of_steps
    {request : Request}
    {events : List Event}
    {steps : List String}
    (hSteps :
      Augmentation.steps request.options =
        ⟨events, .ok steps⟩) :
    augmentation.generate request =
      ⟨(Augmentation.reportInputs request).events ++ events,
        .ok
          { lines :=
              request.render
                (Augmentation.items request.name
                  request.primaryInput steps)
            imports := Augmentation.imports }⟩ := by
  unfold augmentation
  simp only [hSteps, Traced.bind_of_ok
    (Augmentation.outcome_reportInputs request)]
  exact congrArg (Traced.mk · _)
    (congrArg (_ ++ ·) (List.append_nil events))

/-
  An augmentation is the same without nulls, unless the size
  for cropping is `null`. Then it has one line more.
-/
theorem Generator.augmentation_withoutNulls
    {request : Request}
    (hKeys : request.options.toJson.HasDistinctKeys) :
    let bare : Request :=
      { request with options := request.options.withoutNulls }
    (augmentation.generate bare).events =
        (augmentation.generate request).events ∧
      ((augmentation.generate bare).outcome =
          (augmentation.generate request).outcome ↔
        ¬ request.options.HasNullSize) := by
  intro bare
  rcases Augmentation.steps_withoutNulls hKeys with
    ⟨hSame, hOther⟩
  by_cases hSize : request.options.HasNullSize
  · rcases hOther hSize with
      ⟨events, others, size, hBare, hSteps⟩
    have hOwn := augmentation_of_steps hSteps
    have hLess : augmentation.generate bare = _ :=
      augmentation_of_steps hBare
    rw [hOwn, hLess]
    refine ⟨rfl, ?_, fun hNone => absurd hSize hNone⟩
    intro hEq
    have hLength :=
      congrArg (fun made => made.lines.length)
        (Except.ok.inj hEq)
    simp [Request.render,
      Augmentation.length_render_items] at hLength
  · have hEq :
        augmentation.generate bare =
          augmentation.generate request := by
      unfold augmentation
      simp only [bare, hSame hSize]
      rfl
    simp [hEq, hSize]

namespace NodeKind

/-
  A generator makes the same of options with and without their
  nulls, in the options of an optimizer and of cropping too,
  and reports the same, unless it augments images and the size
  of the cropping is `null`. A `null` there becomes a step of
  its own.
-/
theorem generate_withoutNulls_iff
    (kind : NodeKind)
    (request : Request)
    (hKeys : request.options.toJson.HasDistinctKeys) :
    let bare : Request :=
      { request with options := request.options.withoutNulls }
    (kind.generator.generate bare).events =
        (kind.generator.generate request).events ∧
      ((kind.generator.generate bare).outcome =
          (kind.generator.generate request).outcome ↔
        ¬ (kind = .imageAugmentation ∧
          request.options.HasNullSize)) := by
  intro bare
  cases kind with
  | dataLoader =>
      have hSame :
          Generator.dataLoading.generate bare =
            Generator.dataLoading.generate request := by
        unfold Generator.dataLoading
        simp only [bare, DataLoading.choose_withoutNulls hKeys]
        rfl
      simp [generator, hSame]
  | imageAugmentation =>
      rcases Generator.augmentation_withoutNulls hKeys with
        ⟨hEvents, hOutcome⟩
      refine ⟨hEvents, hOutcome.trans ?_⟩
      simp
  | modelTraining =>
      have hSame :
          Generator.training.generate bare =
            Generator.training.generate request := by
        unfold Generator.training
        simp only [bare, Training.choose_withoutNulls hKeys]
        rfl
      simp [generator, hSame]
  | unknown tag isNew =>
      have hSame :
          Generator.placeholder.generate bare =
            Generator.placeholder.generate request :=
        rfl
      simp [generator, hSame]

/- Nulls in options and sections are the same as nothing. -/
theorem generate_withoutNulls_of_nulls :
    let crop : List (String × Json.Value) :=
      [("size", .boolean true), ("scale", .null)]
    let options : Options :=
      ⟨[("rotation", .null), ("crop", .object crop)]⟩
    let request : Request :=
      ⟨⟨"n1"⟩, .imageAugmentation, "imageaugmentation_n1",
        options, ["dataloader_n0"], ⟨"    ", false, true⟩⟩
    let bare : Request :=
      { request with
        options :=
          ⟨[("crop", .object [("size", .boolean true)])]⟩ }
    (imageAugmentation.generator.generate bare).outcome =
      (imageAugmentation.generator.generate request).outcome := by
  intro crop options request bare
  have hKeys : options.toJson.HasDistinctKeys := by
    refine ⟨2, .object (by decide) ?_⟩
    rw [List.forall_mem_cons, List.forall_mem_singleton]
    refine ⟨.null, .object (by decide) ?_⟩
    rw [List.forall_mem_cons, List.forall_mem_singleton]
    exact ⟨.boolean true, .null⟩
  have hSize : ¬ options.HasNullSize := by
    rintro ⟨members, hFound, hNull⟩
    cases hFound
    cases hNull
  have hEquivalent :=
    (generate_withoutNulls_iff .imageAugmentation request
      hKeys).2
  exact hEquivalent.mpr fun hBoth => hSize hBoth.2

/- A size that is `null` becomes a step that crops to `None`. -/
theorem generate_withoutNulls_of_null_size :
    let options : Options :=
      ⟨[("crop", .object [("size", .null)])]⟩
    let request : Request :=
      ⟨⟨"n1"⟩, .imageAugmentation, "imageaugmentation_n1",
        options, ["dataloader_n0"], ⟨"    ", false, true⟩⟩
    let bare : Request :=
      { request with options := options.withoutNulls }
    let step :=
      "aug_transforms.append("
        ++ "transforms.RandomResizedCrop(size=None))"
    (∃ generated,
        (imageAugmentation.generator.generate request).outcome =
            .ok generated ∧
          step ∈ generated.lines) ∧
      ∃ generated,
        (imageAugmentation.generator.generate bare).outcome =
            .ok generated ∧
          step ∉ generated.lines := by
  refine ⟨⟨_, rfl, ?_⟩, ⟨_, rfl, ?_⟩⟩
  · decide
  · decide

end NodeKind

end PipelineScript
