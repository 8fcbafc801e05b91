import PipelineScript.Proofs.Script.Run

/-
  Where visits stop, and what they report on their way.

  A visit reports what its generator reports. A run over nodes
  that fails has made all visits before one of them, and ends
  with the error of that one. Around its visits a run reports
  the phases that it comes to.

  Key definitions include:
    * `Assembly.opening`
    * `Assembly.closing`

  Key theorems include:
    * `Assembly.visit_eq_error`
    * `Assembly.visitAll_eq_error`
    * `Assembly.events_visitAll`
    * `Assembly.conduct_of_check_error`
    * `Assembly.conduct_of_ofDescription_error`
    * `Assembly.conduct_of_order_error`
    * `Assembly.conduct_of_generate_error`
    * `Assembly.conduct_of_generate`
    * `Assembly.events_assemble`
-/

namespace PipelineScript

namespace Assembly

variable {settings : Settings} {registry : Registry}
variable {description : Description} {graph : Graph}
variable {progress next after : Progress}
variable {place : Nat} {node : Node} {places : List Nat}
variable {error : CompileError}

------------------------------------------------------------
-- Visits That Fail
------------------------------------------------------------

/- Names of inputs are missed where a place has no name. -/
theorem inputNames_eq_error
    {names : NameTable}
    (hError :
      inputNames graph names node places = .error error) :
    ∃ input ∈ places, names.get? input = none := by
  induction places with
  | nil => simp [inputNames] at hError
  | cons place places ih =>
      cases hName : names.get? place with
      | none => exact ⟨place, List.mem_cons_self, hName⟩
      | some name =>
          simp only [inputNames, inputName, hName, bind_eq_error,
            reduceCtorEq, and_false, exists_false, false_or,
            or_false] at hError
          rcases hError with ⟨_, -, hRest⟩
          rcases ih hRest with ⟨input, hInput, hNone⟩
          exact ⟨input, List.mem_cons_of_mem _ hInput, hNone⟩

/-
  A visit fails where the name cannot be given, where an input
  has no name, where the generator fails, or where the imports
  cannot be taken up.
-/
theorem visit_eq_error
    (hVisit :
      (visit settings registry graph progress place
        node).outcome = .error error) :
    progress.names.assign place node.id
          (nodeName node.kind node.id) =
        .error error ∨
      ∃ names,
        progress.names.assign place node.id
            (nodeName node.kind node.id) =
          .ok names ∧
        (inputNames graph names node (graph.inputsOf place) =
            .error error ∨
          ∃ (block : Block),
            block.place = place ∧ block.node = node ∧
              (graph.inputsOf place).map names.get? =
                block.inputs.map some ∧
              ((registry.generate
                  (block.request settings)).outcome =
                  .error error ∨
                (registry.generate
                    (block.request settings)).outcome =
                    .ok block.generated ∧
                  (ImportBlock.ofDirectives
                      (block.requests settings) >>=
                    progress.imports.merge) =
                  .error error)) := by
  unfold visit at hVisit
  simp only [Traced.outcome_bind_eq_error,
    Traced.outcome_ofExcept, Traced.outcome_pure,
    blockImports_eq, reduceCtorEq, and_false, exists_false,
    or_false] at hVisit
  rcases hVisit with hName | ⟨names, hNames, hVisit⟩
  · exact Or.inl hName
  refine Or.inr ⟨names, hNames, ?_⟩
  rcases hVisit with hInput | ⟨inputs, hInputs, hVisit⟩
  · exact Or.inl hInput
  rw [inputNames_eq_ok_iff] at hInputs
  right
  rcases hVisit with hGenerate | ⟨generated, hOk, hImports⟩
  · exact ⟨⟨place, node, inputs, ⟨[], []⟩⟩, rfl, rfl, hInputs,
      Or.inl hGenerate⟩
  · exact ⟨⟨place, node, inputs, generated⟩, rfl, rfl, hInputs,
      Or.inr ⟨hOk, hImports⟩⟩

/- A run that fails has made all visits before one that does. -/
theorem visitAll_eq_error
    (hRun :
      (visitAll settings registry graph progress
        places).outcome = .error error) :
    ∃ before place after middle node,
      places = before ++ place :: after ∧
        graph.nodes[place]? = some node ∧
        (visitAll settings registry graph progress
          before).outcome = .ok middle ∧
        (visit settings registry graph middle place
          node).outcome = .error error := by
  induction places generalizing progress with
  | nil => simp [visitAll] at hRun
  | cons first places ih =>
      cases hNode : graph.nodes[first]? with
      | none =>
          simp only [visitAll, hNode] at hRun
          rcases ih hRun with
            ⟨before, place, after, middle, node, rfl, hPlace,
              hBefore, hVisit⟩
          refine ⟨first :: before, place, after, middle, node,
            rfl, hPlace, ?_, hVisit⟩
          simpa only [visitAll, hNode] using hBefore
      | some node =>
          simp only [visitAll, hNode,
            Traced.outcome_bind_eq_error] at hRun
          rcases hRun with hVisit | ⟨next, hFirst, hRest⟩
          · exact ⟨[], first, places, progress, node, rfl,
              hNode, rfl, hVisit⟩
          · rcases ih hRest with
              ⟨before, place, after, middle, other, rfl,
                hPlace, hBefore, hVisit⟩
            refine ⟨first :: before, place, after, middle, other,
              rfl, hPlace, ?_, hVisit⟩
            simp only [visitAll, hNode,
              Traced.outcome_bind_eq_ok]
            exact ⟨next, hFirst, hBefore⟩

------------------------------------------------------------
-- Generating
------------------------------------------------------------

/- Blocks are made until the imports or a visit fail. -/
theorem generate_eq_error
    (hGenerate :
      (generate settings registry graph places).outcome =
        .error error) :
    ImportBlock.ofDirectives settings.imports.defaults =
        .error error ∨
      ∃ defaults,
        ImportBlock.ofDirectives settings.imports.defaults =
            .ok defaults ∧
          (visitAll settings registry graph
            { body := []
              imports := defaults
              names := .empty
              unhandled := 0 }
            places).outcome = .error error := by
  rwa [generate, Traced.outcome_bind_eq_error,
    Traced.outcome_ofExcept] at hGenerate

------------------------------------------------------------
-- Events
------------------------------------------------------------

/- A visit names the node in its place. -/
theorem isOf_of_visit
    (hNode : graph.nodes[place]? = some node)
    (hOf : progress.names.IsOf graph)
    (hVisit :
      (visit settings registry graph progress place
        node).outcome = .ok next) :
    next.names.IsOf graph := by
  rcases visit_eq_ok_iff.mp hVisit with
    ⟨names, block, imports, rfl, rfl, hNames, -, -, -, rfl⟩
  exact hOf.assign hNode hNames

/- A visit reports what its generator reports. -/
theorem events_visit
    {block : Block}
    (hMade : block.IsMade settings registry graph)
    (hOf : progress.names.IsOf graph)
    (hVisit :
      (visit settings registry graph progress block.place
        block.node).outcome = .ok next) :
    (visit settings registry graph progress block.place
        block.node).events =
      (registry.generate (block.request settings)).events := by
  rcases visit_eq_ok_iff.mp hVisit with
    ⟨names, made, imports, -, hNode, hNames, hInputs,
      hGenerated, -, rfl⟩
  have hName :
      made.name = nodeName block.node.kind block.node.id := by
    rw [Block.name, hNode]
  rw [hName] at hNames
  have hNamesOf : names.IsOf graph :=
    isOf_of_visit hMade.node_eq hOf hVisit
  have hSame : made.inputs = block.inputs := by
    apply List.map_injective_iff.mpr (Option.some_injective _)
    rw [← hMade.inputs_eq,
      ← map_nameAt?_of_map_get? hNamesOf hInputs]
  have hRequest :
      made.request settings = block.request settings := by
    rw [Block.request, Block.request, hName, hSame, hNode]
    rfl
  have hTaken :
      inputNames graph names block.node
          (graph.inputsOf block.place) =
        .ok block.inputs := by
    rw [inputNames_eq_ok_iff, hInputs, hSame]
  rw [hRequest, Block.request, Block.name] at hGenerated
  unfold visit Block.request Block.name
  simp only [Traced.events_bind, Traced.outcome_ofExcept,
    Traced.events_ofExcept, Traced.events_pure, hNames, hTaken,
    hGenerated, List.nil_append]
  -- Taking up imports reports nothing, whether it fails or not.
  split
  · exact List.append_nil _
  · exact List.append_nil _

/- A run reports what its generators report, block by block. -/
theorem events_visitAll
    {blocks : List Block}
    (hMade :
      ∀ block ∈ blocks, block.IsMade settings registry graph)
    (hOf : progress.names.IsOf graph)
    (hRun :
      (visitAll settings registry graph progress
        (blocks.map Block.place)).outcome = .ok after) :
    (visitAll settings registry graph progress
        (blocks.map Block.place)).events =
      blocks.flatMap fun block =>
        (registry.generate (block.request settings)).events := by
  induction blocks generalizing progress with
  | nil => rfl
  | cons block blocks ih =>
      rw [List.forall_mem_cons] at hMade
      simp only [List.map_cons, visitAll, hMade.1.node_eq,
        Traced.outcome_bind_eq_ok] at hRun
      rcases hRun with ⟨next, hVisit, hRest⟩
      have hNext : next.names.IsOf graph :=
        isOf_of_visit hMade.1.node_eq hOf hVisit
      simp only [List.map_cons, visitAll, hMade.1.node_eq,
        Traced.events_bind, hVisit, List.flatMap_cons]
      rw [events_visit hMade.1 hOf hVisit,
        ih hMade.2 hNext hRest]

/- What is reported before the first block is begun. -/
def opening (settings : Settings) : List Event :=
  settings.check.events
    ++ [.phaseChanged .initialized .graphBuilt,
      .phaseChanged .graphBuilt .sorted,
      .phaseChanged .sorted .generating]

/- What is reported behind the last block. -/
def closing : List Event :=
  [.phaseChanged .generating .assembled]

------------------------------------------------------------
-- Stages
------------------------------------------------------------

/- Work that goes through hands on to what comes next. -/
theorem Staged.lift_bind_of_ok
    {α β : Type}
    {x : Traced Event CompileError α}
    {value : α}
    (hOk : x.outcome = .ok value)
    (next : α → Staged β)
    (phase : Phase) :
    (lift x >>= next) phase =
      ((next value phase).1,
        (next value phase).2.after x.events) := by
  change andThen (lift x) next phase = _
  simp only [andThen, lift, hOk]

/- What is there already needs no work. -/
theorem Staged.lift_ok_bind
    {α β : Type}
    (value : α)
    (next : α → Staged β) :
    lift (.ofExcept (.ok value)) >>= next = next value :=
  funext fun phase => Staged.lift_bind_of_ok rfl next phase

/- Work that fails stops a run in its phase. -/
theorem Staged.lift_bind_of_error
    {α β : Type}
    {x : Traced Event CompileError α}
    (hError : x.outcome = .error error)
    (next : α → Staged β)
    (phase : Phase) :
    (lift x >>= next) phase =
      (phase, ⟨x.events, .error error⟩) := by
  change andThen (lift x) next phase = _
  simp only [andThen, lift, hError]

/- A step into another phase is reported, and goes through. -/
theorem transition_bind
    {α : Type}
    (reached phase : Phase)
    (next : Unit → Staged α) :
    (transition reached >>= next) phase =
      ((next () reached).1,
        (next () reached).2.after
          [.phaseChanged phase reached]) :=
  rfl

/- Work that fails is over, and tells where it was. -/
theorem conclude_of_error
    {work : Staged Script}
    {phase reached : Phase}
    {events : List Event}
    (hWork : work phase = (reached, ⟨events, .error error⟩)) :
    conclude work phase =
      (.failed,
        ⟨events
            ++ [.assemblyFailed error,
              .phaseChanged reached .failed],
          .error error⟩) := by
  unfold conclude
  rw [hWork]
  rfl

/- Work that makes a script is over. -/
theorem conclude_of_ok
    {work : Staged Script}
    {phase reached : Phase}
    {events : List Event}
    {script : Script}
    (hWork : work phase = (reached, ⟨events, .ok script⟩)) :
    conclude work phase = (reached, ⟨events, .ok script⟩) := by
  unfold conclude
  rw [hWork]

/- Settings that can make a script let a run go on. -/
theorem checkSettings_of_check
    (hCheck : settings.check.outcome = .ok ()) :
    (checkSettings settings).outcome = .ok () :=
  Traced.outcome_mapError_of_ok _ hCheck

/- Settings that cannot make a script stop a run at once. -/
theorem conduct_of_check_error
    {problem : SettingsProblem}
    (hCheck : settings.check.outcome = .error problem)
    (registry : Registry)
    (description : Description) :
    conduct settings registry description .initialized =
      (.failed,
        ⟨settings.check.events
            ++ [.assemblyFailed (.validation (.settings problem)),
              .phaseChanged .initialized .failed],
          .error (.validation (.settings problem))⟩) := by
  have hFails :
      (checkSettings settings).outcome =
        .error (.validation (.settings problem)) := by
    rw [checkSettings, Traced.mapError, hCheck]
  exact conclude_of_error (Staged.lift_bind_of_error hFails _ _)

/- A description without a graph stops in the first phase. -/
theorem conduct_of_ofDescription_error
    (hCheck : settings.check.outcome = .ok ())
    (hGraph : Graph.ofDescription description = .error error)
    (registry : Registry) :
    conduct settings registry description .initialized =
      (.failed,
        ⟨settings.check.events
            ++ [.assemblyFailed error,
              .phaseChanged .initialized .failed],
          .error error⟩) := by
  have hRun :
      run settings registry description .initialized =
        (.initialized,
          ⟨settings.check.events ++ [], .error error⟩) := by
    rw [run,
      Staged.lift_bind_of_ok (checkSettings_of_check hCheck),
      Staged.lift_bind_of_error hGraph]
    rfl
  rw [List.append_nil] at hRun
  exact conclude_of_error hRun

/- A graph without an order stops in the second phase. -/
theorem conduct_of_order_error
    (hCheck : settings.check.outcome = .ok ())
    (hGraph : Graph.ofDescription description = .ok graph)
    (hOrder : graph.order = .error error)
    (registry : Registry) :
    conduct settings registry description .initialized =
      (.failed,
        ⟨settings.check.events
            ++ [.phaseChanged .initialized .graphBuilt,
              .assemblyFailed error,
              .phaseChanged .graphBuilt .failed],
          .error error⟩) := by
  have hRun :
      run settings registry description .initialized =
        (.graphBuilt,
          ⟨settings.check.events
              ++ [.phaseChanged .initialized .graphBuilt],
            .error error⟩) := by
    rw [run,
      Staged.lift_bind_of_ok (checkSettings_of_check hCheck),
      Staged.lift_bind_of_ok hGraph, transition_bind,
      Staged.lift_bind_of_error hOrder]
    rfl
  rw [conduct, conclude_of_error hRun, List.append_assoc]
  rfl

/- Blocks that cannot be made stop a run among them. -/
theorem conduct_of_generate_error
    (hCheck : settings.check.outcome = .ok ())
    (hGraph : Graph.ofDescription description = .ok graph)
    (hOrder : graph.order = .ok places)
    (hGenerate :
      (generate settings registry graph places).outcome =
        .error error) :
    conduct settings registry description .initialized =
      (.failed,
        ⟨opening settings
            ++ (generate settings registry graph places).events
            ++ [.assemblyFailed error,
              .phaseChanged .generating .failed],
          .error error⟩) := by
  have hRun :
      run settings registry description .initialized =
        (.generating,
          ⟨opening settings
              ++ (generate settings registry graph places).events,
            .error error⟩) := by
    rw [run,
      Staged.lift_bind_of_ok (checkSettings_of_check hCheck),
      Staged.lift_bind_of_ok hGraph, transition_bind,
      Staged.lift_bind_of_ok hOrder, transition_bind,
      transition_bind, Staged.lift_bind_of_error hGenerate]
    simp [opening, Traced.after, checkSettings]
  exact conclude_of_error hRun

/- Blocks that were made are put together. -/
theorem conduct_of_generate
    (hCheck : settings.check.outcome = .ok ())
    (hGraph : Graph.ofDescription description = .ok graph)
    (hOrder : graph.order = .ok places)
    (hGenerate :
      (generate settings registry graph places).outcome =
        .ok progress) :
    conduct settings registry description .initialized =
      (.assembled,
        ⟨opening settings
            ++ (generate settings registry graph places).events
            ++ closing,
          .ok
            (scriptOf settings description graph places
              progress)⟩) := by
  have hRun :
      run settings registry description .initialized =
        (.assembled,
          ⟨opening settings
              ++ (generate settings registry graph places).events
              ++ closing,
            .ok
              (scriptOf settings description graph places
                progress)⟩) := by
    rw [run,
      Staged.lift_bind_of_ok (checkSettings_of_check hCheck),
      Staged.lift_bind_of_ok hGraph, transition_bind,
      Staged.lift_bind_of_ok hOrder, transition_bind,
      transition_bind, Staged.lift_bind_of_ok hGenerate,
      transition_bind]
    simp [opening, closing, Traced.after, checkSettings, pure,
      Staged.lift, Traced.done]
  exact conclude_of_ok hRun

/- A script is reported block by block, between two phases. -/
theorem events_assemble
    {blocks : List Block}
    {script : Script}
    (hAssemble :
      (assemble settings registry description).outcome =
        .ok script)
    (hMade :
      script.IsMadeOf settings registry description graph
        blocks) :
    (assemble settings registry description).events =
      opening settings
        ++ blocks.flatMap (fun block =>
          (registry.generate (block.request settings)).events)
        ++ closing := by
  rcases assemble_eq_ok_iff.mp hAssemble with
    ⟨hCheck, other, places, progress, hGraph, hOrder,
      hGenerate, -⟩
  rw [assemble,
    conduct_of_generate hCheck hGraph hOrder hGenerate]
  rw [hMade.graph_eq, Except.ok.injEq] at hGraph
  subst hGraph
  rw [hMade.order_eq, Except.ok.injEq] at hOrder
  subst hOrder
  rw [generate, Traced.outcome_bind_eq_ok] at hGenerate
  rcases hGenerate with ⟨defaults, hDefaults, hVisits⟩
  rw [generate, Traced.events_bind_of_ok hDefaults,
    Traced.events_ofExcept, List.nil_append,
    events_visitAll hMade.made
      (NameTable.isOf_empty graph) hVisits]

end Assembly

end PipelineScript
