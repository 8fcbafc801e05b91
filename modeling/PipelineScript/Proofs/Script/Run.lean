import PipelineScript.Proofs.Script.Blocks
import PipelineScript.Script.Compiler

/-
  What a compiled script was made of, and where the making of
  one stops.

  Key definitions include:
    * `Script.IsMadeOf`

  Key theorems include:
    * `Assembly.outcome_assemble`
    * `Assembly.assemble_eq_ok_iff`
    * `Assembly.assemble_eq_error_iff`
    * `Assembly.exists_isMadeOf`
    * `Compiler.compile_eq_ok_iff`
-/

namespace PipelineScript

------------------------------------------------------------
-- Settings
------------------------------------------------------------

/- Settings can make a script if two of them are well formed. -/
theorem Settings.check_eq_ok_iff
    {settings : Settings} :
    settings.check.outcome = .ok () ↔
      isIndent settings.indent ∧
        Text.isIdentifier settings.entrypoint := by
  unfold check problem?
  by_cases hIndent : isIndent settings.indent
  · by_cases hName : Text.isIdentifier settings.entrypoint
    · by_cases hTorch : settings.lacksTorch
      · simp [hIndent, hName, hTorch]
      · simp [hIndent, hName, hTorch]
    · simp [hIndent, hName, Traced.fail]
  · simp [hIndent, Traced.fail]

namespace Assembly

variable {settings : Settings} {registry : Registry}
variable {description : Description} {script : Script}

------------------------------------------------------------
-- Stages
------------------------------------------------------------

/- Work goes on with what the work before it came to. -/
theorem Staged.outcome_bind
    {α β : Type}
    (work : Staged α)
    (next : α → Staged β)
    (phase : Phase) :
    ((work >>= next) phase).2.outcome =
      (work phase).2.outcome >>= fun value =>
        (next value (work phase).1).2.outcome := by
  change (andThen work next phase).2.outcome = _
  unfold andThen
  rcases work phase with ⟨reached, events, _ | value⟩
  · rfl
  · rfl

/- Reporting how work ended does not change its outcome. -/
theorem outcome_conclude
    (work : Staged Script)
    (phase : Phase) :
    (conclude work phase).2.outcome =
      (work phase).2.outcome := by
  unfold conclude
  rcases work phase with ⟨reached, events, _ | script⟩
  · rfl
  · rfl

/- What a run comes to does not depend on its phases. -/
theorem outcome_assemble
    (settings : Settings)
    (registry : Registry)
    (description : Description) :
    (assemble settings registry description).outcome =
      (do
        (checkSettings settings).outcome
        let graph ← Graph.ofDescription description
        let order ← graph.order
        let progress ←
          (generate settings registry graph order).outcome
        return scriptOf settings description graph order
          progress) := by
  rw [assemble, conduct, outcome_conclude, run]
  simp only [Staged.outcome_bind]
  rfl

/- A run succeeds if every stage of it does. -/
theorem assemble_eq_ok_iff :
    (assemble settings registry description).outcome =
        .ok script ↔
      settings.check.outcome = .ok () ∧
        ∃ graph order progress,
          Graph.ofDescription description = .ok graph ∧
            graph.order = .ok order ∧
            (generate settings registry graph order).outcome =
              .ok progress ∧
            script =
              scriptOf settings description graph order
                progress := by
  rw [outcome_assemble]
  simp only [bind_eq_ok, checkSettings,
    Traced.outcome_mapError_eq_ok, pure, Except.pure,
    Except.ok.injEq]
  constructor
  · rintro ⟨_, hCheck, graph, hGraph, order, hOrder, progress,
      hProgress, rfl⟩
    exact ⟨hCheck, graph, order, progress, hGraph, hOrder,
      hProgress, rfl⟩
  · rintro ⟨hCheck, graph, order, progress, hGraph, hOrder,
      hProgress, rfl⟩
    exact ⟨(), hCheck, graph, hGraph, order, hOrder, progress,
      hProgress, rfl⟩

/- A run fails for its settings, or in one of its stages. -/
theorem assemble_eq_error_iff
    {error : CompileError} :
    (assemble settings registry description).outcome =
        .error error ↔
      (∃ problem,
        settings.check.outcome = .error problem ∧
          error = .validation (.settings problem)) ∨
        settings.check.outcome = .ok () ∧
          (Graph.ofDescription description = .error error ∨
            ∃ graph,
              Graph.ofDescription description = .ok graph ∧
                (graph.order = .error error ∨
                  ∃ places,
                    graph.order = .ok places ∧
                      (generate settings registry graph
                        places).outcome = .error error)) := by
  rw [outcome_assemble]
  simp only [bind_eq_error, checkSettings,
    Traced.outcome_mapError_eq_ok,
    Traced.outcome_mapError_eq_error, pure, Except.pure,
    reduceCtorEq, and_false, exists_false, or_false]
  constructor
  · rintro (⟨problem, hCheck, rfl⟩ | ⟨_, hCheck, hRest⟩)
    · exact Or.inl ⟨problem, hCheck, rfl⟩
    · exact Or.inr ⟨hCheck, hRest⟩
  · rintro (⟨problem, hCheck, rfl⟩ | ⟨hCheck, hRest⟩)
    · exact Or.inl ⟨problem, hCheck, rfl⟩
    · exact Or.inr ⟨(), hCheck, hRest⟩

/- A pipeline that cannot be resolved is not made. -/
theorem assemble_eq_error_of_ofDescription
    {error : CompileError}
    (hCheck : settings.check.outcome = .ok ())
    (hGraph : Graph.ofDescription description = .error error) :
    (assemble settings registry description).outcome =
      .error error :=
  assemble_eq_error_iff.mpr (Or.inr ⟨hCheck, Or.inl hGraph⟩)

/- A pipeline without an order is not made. -/
theorem assemble_eq_error_of_order
    {graph : Graph}
    {error : CompileError}
    (hCheck : settings.check.outcome = .ok ())
    (hGraph : Graph.ofDescription description = .ok graph)
    (hOrder : graph.order = .error error) :
    (assemble settings registry description).outcome =
      .error error :=
  assemble_eq_error_iff.mpr
    (Or.inr ⟨hCheck, Or.inr ⟨graph, hGraph, Or.inl hOrder⟩⟩)

end Assembly

------------------------------------------------------------
-- Scripts and Their Blocks
------------------------------------------------------------

/- A script with the blocks that it was put together from. -/
structure Script.IsMadeOf
    (settings : Settings)
    (registry : Registry)
    (description : Description)
    (graph : Graph)
    (blocks : List Block)
    (script : Script) : Prop where
  graph_eq : Graph.ofDescription description = .ok graph
  order_eq : graph.order = .ok (blocks.map Block.place)
  made : ∀ block ∈ blocks, block.IsMade settings registry graph
  isSound : NameEntry.AreSound (blocks.map Block.entry)
  text_eq :
    script.text =
      Text.unlines
        (Layout.lines settings description.remarks
          script.imports
          (blocks.flatMap fun block => block.generated.lines))
  ids_eq : script.order = blocks.map fun block => block.node.id
  names_eq :
    script.names =
      blocks.map fun block => (block.node.id, block.name)
  imports_isNormal : script.imports.IsNormal
  mem_imports :
    ∀ kept,
      kept ∈ script.imports.directives ↔
        kept ∈
          (settings.imports.defaults ++
            blocks.flatMap (Block.requests settings)).map
              Directive.normalized

namespace Graph

variable {description : Description} {graph : Graph}

/- An order of a graph has every edge leading on. -/
theorem isOrder_of_order
    (hGraph : ofDescription description = .ok graph)
    {places : List Nat}
    (hOrder : graph.order = .ok places) :
    graph.adjacency.IsOrder places :=
  Adjacency.order_eq_ok
    (counts_adjacency (isClosed_of_ofDescription hGraph))
    (order_eq_ok_iff.mp hOrder)

/- An order has every place of the graph once. -/
theorem perm_range_of_order
    (hGraph : ofDescription description = .ok graph)
    {places : List Nat}
    (hOrder : graph.order = .ok places) :
    places.Perm (List.range graph.size) := by
  simpa [adjacency, Adjacency.size, Graph.places] using
    (isOrder_of_order hGraph hOrder).perm

end Graph

namespace Assembly

variable {settings : Settings} {registry : Registry}
variable {description : Description} {script : Script}

/- A script that was put together is made of blocks. -/
theorem exists_isMadeOf
    (hAssemble :
      (assemble settings registry description).outcome =
        .ok script) :
    ∃ graph blocks,
      script.IsMadeOf settings registry description graph
        blocks := by
  rcases assemble_eq_ok_iff.mp hAssemble with
    ⟨-, graph, order, progress, hGraph, hOrder, hGenerate, rfl⟩
  rw [generate, Traced.outcome_bind_eq_ok] at hGenerate
  rcases hGenerate with ⟨defaults, hDefaults, hVisit⟩
  rw [Traced.outcome_ofExcept] at hDefaults
  have hNormal : defaults.IsNormal :=
    ImportBlock.isNormal_of_addAll ImportBlock.isNormal_empty
      hDefaults
  have hPerm := Graph.perm_range_of_order hGraph hOrder
  have hPlaces : ∀ place ∈ order, place < graph.size := by
    intro place hPlace
    exact List.mem_range.mp (hPerm.mem_iff.mp hPlace)
  rcases exists_visited hPlaces hNormal
      (NameTable.isOf_empty graph) hVisit with
    ⟨blocks, rfl, hVisited⟩
  have hLists : progress.names.Lists (blocks.map Block.entry) :=
    hVisited.lists [] NameTable.lists_empty
  refine ⟨graph, blocks, hGraph, hOrder, hVisited.made,
    hLists.areSound, ?_, ?_, ?_, hVisited.imports_isNormal, ?_⟩
  · simp [scriptOf, hVisited.body_eq]
  · simp only [scriptOf, Graph.idsAt,
      List.filterMap_map]
    apply List.filterMap_eq_map_iff_forall_eq_some.mpr
    intro block hBlock
    simp [(hVisited.made block hBlock).node_eq]
  · simp only [scriptOf, List.filterMap_map]
    apply List.filterMap_eq_map_iff_forall_eq_some.mpr
    intro block hBlock
    have hName :
        progress.names.get? block.place = some block.name :=
      hLists.get?_eq (List.mem_map_of_mem hBlock)
    simp [(hVisited.made block hBlock).node_eq, hName]
  · intro kept
    rw [scriptOf, hVisited.mem_imports,
      ImportBlock.mem_of_addAll hDefaults,
      List.map_append, List.mem_append]
    simp

end Assembly

namespace Compiler

variable {compiler : Compiler}
variable {description : Description} {script : Script}

/- Compiling is assembling, with a message behind it. -/
theorem compile_eq_ok_iff :
    (compiler.compile description).outcome = .ok script ↔
      (Assembly.assemble compiler.settings compiler.registry
        description).outcome = .ok script := by
  unfold compile
  simp [Traced.outcome_bind_eq_ok]

/- Compiling fails with what assembling fails with. -/
theorem compile_eq_error_iff
    {error : CompileError} :
    (compiler.compile description).outcome = .error error ↔
      (Assembly.assemble compiler.settings compiler.registry
        description).outcome = .error error := by
  unfold compile
  simp [Traced.outcome_bind_eq_error]

/- A script is compiled with settings that can make one. -/
theorem check_of_compile
    (hCompile :
      (compiler.compile description).outcome = .ok script) :
    compiler.settings.check.outcome = .ok () :=
  (Assembly.assemble_eq_ok_iff.mp
      (compile_eq_ok_iff.mp hCompile)).1

/- A compiled script is made of blocks. -/
theorem exists_isMadeOf
    (hCompile :
      (compiler.compile description).outcome = .ok script) :
    ∃ graph blocks,
      script.IsMadeOf compiler.settings compiler.registry
        description graph blocks :=
  Assembly.exists_isMadeOf (compile_eq_ok_iff.mp hCompile)

end Compiler

end PipelineScript
