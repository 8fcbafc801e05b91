import PipelineScript.Proofs.Script.Generators
import PipelineScript.Proofs.Script.Visiting

/-
  What is reported while a script is made.

  The generators report on the node they are called for, and
  on nothing else. So what a compiler says of its settings, it
  says before the first of them is called.

  Key definitions include:
    * `Event.isOfNode`
    * `Traced.Reports`

  Key theorems include:
    * `Traced.Reports.bind`
    * `Registry.reports_generate_standard`
    * `Assembly.reports_generate`
    * `Compiler.torchNotImported_mem_events_iff`
-/

namespace PipelineScript

------------------------------------------------------------
-- Kinds of Reports
------------------------------------------------------------

/- The event tells of a single node. -/
def Event.isOfNode : Event → Bool
  | .optionMismatch _ _ _ => true
  | .cropIgnored _ => true
  | .loaderInputsIgnored _ _ => true
  | .furtherInputsIgnored _ _ _ => true
  | .placeholderUsed _ _ => true
  | .generating _ _ => true
  | _ => false

namespace Traced

variable {ω ε α β : Type} {p : ω → Prop}

/- All events of a computation are of some kind. -/
def Reports (p : ω → Prop) (x : Traced ω ε α) : Prop :=
  ∀ event ∈ x.events, p event

/- Nothing is reported. -/
theorem reports_of_events_eq_nil
    {x : Traced ω ε α}
    (hNone : x.events = []) :
    x.Reports p := by
  rw [Reports, hNone]
  exact List.forall_mem_nil p

/- One event is reported. -/
theorem reports_of_events_eq_singleton
    {x : Traced ω ε α}
    {event : ω}
    (hOne : x.events = [event])
    (hEvent : p event) :
    x.Reports p := by
  rw [Reports, hOne, List.forall_mem_singleton]
  exact hEvent

/- Two steps report what either of them does. -/
theorem Reports.bind
    {x : Traced ω ε α}
    {next : α → Traced ω ε β}
    (hFirst : x.Reports p)
    (hNext : ∀ value, (next value).Reports p) :
    (x >>= next).Reports p := by
  rw [Reports, events_bind]
  cases x.outcome with
  | ok value =>
      exact List.forall_mem_append.mpr ⟨hFirst, hNext value⟩
  | error error => exact hFirst

end Traced

------------------------------------------------------------
-- Reports of Generators
------------------------------------------------------------

/- An option is reported at most as what it is. -/
theorem Options.reports_getOr
    {ε α : Type}
    (options : Options)
    (key : String)
    (expected : OptionKind)
    (default : α)
    (use? : Json.Value → Option α) :
    (options.getOr key expected default use? :
      Traced Event ε α).Reports (·.isOfNode) := by
  unfold getOr
  split
  · exact Traced.reports_of_events_eq_nil rfl
  · split
    · exact Traced.reports_of_events_eq_nil rfl
    · exact Traced.reports_of_events_eq_singleton rfl rfl

namespace DataLoading

theorem reports_choose (options : Options) :
    (choose options).Reports (·.isOfNode) := by
  refine (options.reports_getOr _ _ _ _).bind fun _ => ?_
  refine (options.reports_getOr _ _ _ _).bind fun _ => ?_
  refine (options.reports_getOr _ _ _ _).bind fun _ => ?_
  exact Traced.reports_of_events_eq_nil rfl

theorem reports_reportInputs (request : Request) :
    (reportInputs request).Reports (·.isOfNode) := by
  unfold reportInputs
  split
  · exact Traced.reports_of_events_eq_nil rfl
  · exact Traced.reports_of_events_eq_singleton rfl rfl

end DataLoading

namespace Augmentation

theorem reports_reportInputs (request : Request) :
    (reportInputs request).Reports (·.isOfNode) := by
  unfold reportInputs
  split
  · exact Traced.reports_of_events_eq_singleton rfl rfl
  · exact Traced.reports_of_events_eq_nil rfl

theorem reports_positiveStep
    (options : Options)
    (key call : String) :
    (positiveStep options key call).Reports (·.isOfNode) := by
  refine (options.reports_getOr _ _ _ _).bind fun found => ?_
  cases found with
  | none => exact Traced.reports_of_events_eq_nil rfl
  | some n => exact Traced.reports_of_events_eq_nil rfl

theorem reports_flipStep (options : Options) :
    (flipStep options).Reports (·.isOfNode) := by
  unfold flipStep
  split
  · exact Traced.reports_of_events_eq_nil rfl
  · exact reports_positiveStep options _ _
  · exact Traced.reports_of_events_eq_nil rfl

theorem reports_cropStep (options : Options) :
    (cropStep options).Reports (·.isOfNode) := by
  unfold cropStep
  split
  · exact Traced.reports_of_events_eq_nil rfl
  · exact Traced.reports_of_events_eq_nil rfl
  · exact Traced.reports_of_events_eq_nil rfl
  · exact Traced.reports_of_events_eq_nil rfl
  · split
    · exact Traced.reports_of_events_eq_nil rfl
    · exact Traced.reports_of_events_eq_nil rfl
  · exact Traced.reports_of_events_eq_singleton rfl rfl

theorem reports_steps (options : Options) :
    (steps options).Reports (·.isOfNode) := by
  refine (reports_positiveStep options _ _).bind fun _ => ?_
  refine (reports_flipStep options).bind fun _ => ?_
  refine (reports_positiveStep options _ _).bind fun _ => ?_
  refine (reports_cropStep options).bind fun _ => ?_
  exact Traced.reports_of_events_eq_nil rfl

end Augmentation

theorem Training.reports_choose (options : Options) :
    (choose options).Reports (·.isOfNode) := by
  refine (options.reports_getOr _ _ _ _).bind fun _ => ?_
  refine (options.reports_getOr _ _ _ _).bind fun _ => ?_
  refine (options.reports_getOr _ _ _ _).bind fun _ => ?_
  refine (options.reports_getOr _ _ _ _).bind fun inner => ?_
  refine (inner.reports_getOr _ _ _ _).bind fun _ => ?_
  refine (inner.reports_getOr _ _ _ _).bind fun _ => ?_
  refine (inner.reports_getOr _ _ _ _).bind fun _ => ?_
  refine (inner.reports_getOr _ _ _ _).bind fun _ => ?_
  exact Traced.reports_of_events_eq_nil rfl

/- Every kind of generator tells of the node it is called for. -/
theorem NodeKind.reports_generator
    (kind : NodeKind)
    (request : Request) :
    (kind.generator.generate request).Reports (·.isOfNode) := by
  cases kind with
  | dataLoader =>
      refine (DataLoading.reports_choose _).bind fun _ => ?_
      refine (DataLoading.reports_reportInputs _).bind
        fun _ => ?_
      exact Traced.reports_of_events_eq_nil rfl
  | imageAugmentation =>
      refine (Augmentation.reports_reportInputs _).bind
        fun _ => ?_
      refine (Augmentation.reports_steps _).bind fun _ => ?_
      exact Traced.reports_of_events_eq_nil rfl
  | modelTraining =>
      refine (Training.reports_choose _).bind fun _ => ?_
      refine (Traced.reports_of_events_eq_nil rfl).bind
        fun _ => ?_
      exact Traced.reports_of_events_eq_nil rfl
  | unknown tag isNew =>
      exact Traced.reports_of_events_eq_singleton rfl rfl

/- The built-in generators tell of nodes only. -/
theorem Registry.reports_generate_standard (request : Request) :
    (standard.generate request).Reports (·.isOfNode) := by
  unfold generate
  rw [request.kind.resolve_standard]
  refine Traced.Reports.bind ?_ fun _ =>
    request.kind.reports_generator request
  exact Traced.reports_of_events_eq_singleton rfl rfl

------------------------------------------------------------
-- Reports of Visits
------------------------------------------------------------

namespace Assembly

variable {registry : Registry} {p : Event → Prop}

/- A visit reports nothing but what a generator reports. -/
theorem reports_visit
    (hTold :
      ∀ request, (registry.generate request).Reports p)
    (settings : Settings)
    (graph : Graph)
    (progress : Progress)
    (place : Nat)
    (node : Node) :
    (visit settings registry graph progress place
      node).Reports p := by
  refine (Traced.reports_of_events_eq_nil rfl).bind fun _ => ?_
  refine (Traced.reports_of_events_eq_nil rfl).bind fun _ => ?_
  refine (hTold _).bind fun _ => ?_
  refine (Traced.reports_of_events_eq_nil rfl).bind fun _ => ?_
  exact Traced.reports_of_events_eq_nil rfl

/- And so do any number of visits. -/
theorem reports_visitAll
    (hTold :
      ∀ request, (registry.generate request).Reports p)
    (settings : Settings)
    (graph : Graph)
    (progress : Progress)
    (places : List Nat) :
    (visitAll settings registry graph progress
      places).Reports p := by
  induction places generalizing progress with
  | nil => exact Traced.reports_of_events_eq_nil rfl
  | cons place places ih =>
      unfold visitAll
      cases graph.nodes[place]? with
      | none => exact ih progress
      | some node =>
          exact (reports_visit hTold _ _ _ _ _).bind ih

/- Making blocks reports what their generators report. -/
theorem reports_generate
    (hTold :
      ∀ request, (registry.generate request).Reports p)
    (settings : Settings)
    (graph : Graph)
    (places : List Nat) :
    (generate settings registry graph places).Reports p := by
  refine (Traced.reports_of_events_eq_nil rfl).bind fun _ => ?_
  exact reports_visitAll hTold _ _ _ _

end Assembly

------------------------------------------------------------
-- Reports on Settings
------------------------------------------------------------

/- Sound settings are reported only for what they lack. -/
theorem Settings.torchNotImported_mem_check_iff
    {settings : Settings}
    (hCheck : settings.check.outcome = .ok ()) :
    .torchNotImported ∈ settings.check.events ↔
      settings.lacksTorch := by
  unfold check at hCheck ⊢
  cases hProblem : settings.problem? with
  | some problem => simp [hProblem, Traced.fail] at hCheck
  | none =>
      by_cases hLacks : settings.lacksTorch
      · simp [hLacks]
      · simp [hLacks, Traced.done]

/- What settings lack shows in how their defaults are spelled. -/
theorem Settings.lacksTorch_iff
    {settings : Settings} :
    settings.lacksTorch ↔
      settings.deviceSetup ∧
        ∀ request ∈ settings.imports.defaults,
          request.path ≠ "torch" := by
  simp [lacksTorch]

namespace Compiler

variable {settings : Settings} {description : Description}
variable {script : Script}

/-
  A script is reported to lack a package if no default import
  is spelled like it. What the imports come to in the script
  plays no part.
-/
theorem torchNotImported_mem_events_iff
    (hCompile :
      ((ofSettings settings).compile description).outcome =
        .ok script) :
    .torchNotImported ∈
        ((ofSettings settings).compile description).events ↔
      settings.lacksTorch := by
  have hCheck : settings.check.outcome = .ok () :=
    check_of_compile hCompile
  have hAssemble := compile_eq_ok_iff.mp hCompile
  rcases exists_isMadeOf hCompile with ⟨graph, blocks, hMade⟩
  have hBlocks :
      .torchNotImported ∉
        blocks.flatMap fun block =>
          (Registry.standard.generate
            (block.request settings)).events := by
    intro hMem
    rcases List.mem_flatMap.mp hMem with ⟨block, -, hEvent⟩
    exact absurd
      (Registry.reports_generate_standard _ _ hEvent)
      Bool.false_ne_true
  rw [compile, Traced.events_bind_of_ok hAssemble,
    Assembly.events_assemble hAssemble hMade,
    ← Settings.torchNotImported_mem_check_iff hCheck]
  simp [Assembly.opening, Assembly.closing, hBlocks,
    Traced.events_bind, ofSettings]

end Compiler

end PipelineScript
