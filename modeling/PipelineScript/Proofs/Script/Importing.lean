import PipelineScript.Proofs.Graph.Waiting
import PipelineScript.Proofs.Import.Flattening
import PipelineScript.Proofs.Script.Restricting

/-
  The imports of a script as one list of requests.

  Every block has imports of its own, and they are merged as
  the blocks are made. What comes of it is what comes of adding
  all requests one by one: those for every script, and behind
  them those of the blocks, in the order of the blocks.

  Key theorems include:
    * `Assembly.addAll_of_visit`
    * `Assembly.addAll_of_visitAll`
    * `Assembly.ofDirectives_of_assemble`
    * `Compiler.compile_flattens_imports`
-/

namespace PipelineScript

variable {settings : Settings} {registry : Registry}
variable {description : Description} {graph : Graph}

/- Only one block is made of the node in a place. -/
theorem Block.IsMade.eq_of_place_eq
    {first second : Block}
    (hFirst : first.IsMade settings registry graph)
    (hSecond : second.IsMade settings registry graph)
    (hPlace : first.place = second.place) :
    first = second := by
  have hNode := hFirst.node_eq
  have hInputs := hFirst.inputs_eq
  have hGenerated := hFirst.generated_eq
  rw [hPlace, hSecond.node_eq, Option.some.injEq] at hNode
  rw [hPlace, hSecond.inputs_eq] at hInputs
  have hSame : second.inputs = first.inputs :=
    List.map_injective_iff.mpr (Option.some_injective String)
      hInputs
  have hRequest :
      first.request settings = second.request settings := by
    rw [Block.request, Block.request, Block.name, Block.name,
      hNode, hSame]
  rw [hRequest, hSecond.generated_eq, Except.ok.injEq]
    at hGenerated
  cases first
  cases second
  simp_all

namespace Assembly

variable {progress next after : Progress}

------------------------------------------------------------
-- Imports Visit by Visit
------------------------------------------------------------

/- A visit adds the requests of its block. -/
theorem addAll_of_visit
    {block : Block}
    (hMade : block.IsMade settings registry graph)
    (hOf : progress.names.IsOf graph)
    (hNormal : progress.imports.IsNormal)
    (hVisit :
      (visit settings registry graph progress block.place
        block.node).outcome = .ok next) :
    progress.imports.addAll (block.requests settings) =
      .ok next.imports := by
  have hNext := isOf_of_visit hMade.node_eq hOf hVisit
  rcases visit_eq_ok_iff.mp hVisit with
    ⟨names, made, imports, hPlace, hNode, -, hInputs,
      hGenerated, hMerge, rfl⟩
  have hSame : made = block := by
    refine Block.IsMade.eq_of_place_eq ⟨?_, ?_, hGenerated⟩
      hMade hPlace
    · rw [hPlace, hNode, hMade.node_eq]
    · rw [hPlace]
      exact map_nameAt?_of_map_get? hNext hInputs
  rw [hSame] at hMerge
  exact (ImportBlock.exists_merge_eq_ok_iff hNormal).mp hMerge

/- Visits add the requests of their blocks one by one. -/
theorem addAll_of_visitAll
    {blocks : List Block}
    (hMade :
      ∀ block ∈ blocks, block.IsMade settings registry graph)
    (hOf : progress.names.IsOf graph)
    (hNormal : progress.imports.IsNormal)
    (hRun :
      (visitAll settings registry graph progress
        (blocks.map Block.place)).outcome = .ok after) :
    progress.imports.addAll
        (blocks.flatMap (Block.requests settings)) =
      .ok after.imports := by
  induction blocks generalizing progress with
  | nil => exact congrArg (Except.map Progress.imports) hRun
  | cons block blocks ih =>
      rw [List.forall_mem_cons] at hMade
      simp only [List.map_cons, visitAll, hMade.1.node_eq,
        Traced.outcome_bind_eq_ok] at hRun
      rcases hRun with ⟨next, hVisit, hRest⟩
      have hFirst := addAll_of_visit hMade.1 hOf hNormal hVisit
      rw [List.flatMap_cons, ImportBlock.addAll_append, hFirst]
      exact ih hMade.2
        (isOf_of_visit hMade.1.node_eq hOf hVisit)
        (ImportBlock.isNormal_of_addAll hNormal hFirst) hRest

/- What a script imports is what all its requests add up to. -/
theorem ofDirectives_of_assemble
    {blocks : List Block}
    {script : Script}
    (hAssemble :
      (assemble settings registry description).outcome =
        .ok script)
    (hMade :
      script.IsMadeOf settings registry description graph
        blocks) :
    ImportBlock.ofDirectives
        (settings.imports.defaults
          ++ blocks.flatMap (Block.requests settings)) =
      .ok script.imports := by
  rcases assemble_eq_ok_iff.mp hAssemble with
    ⟨-, other, places, progress, hGraph, hOrder, hGenerate, rfl⟩
  rw [hMade.graph_eq, Except.ok.injEq] at hGraph
  subst hGraph
  rw [hMade.order_eq, Except.ok.injEq] at hOrder
  subst hOrder
  rw [generate, Traced.outcome_bind_eq_ok] at hGenerate
  rcases hGenerate with ⟨defaults, hDefaults, hVisits⟩
  rw [Traced.outcome_ofExcept, ImportBlock.ofDirectives]
    at hDefaults
  have hNormal :=
    ImportBlock.isNormal_of_addAll ImportBlock.isNormal_empty
      hDefaults
  rw [ImportBlock.ofDirectives, ImportBlock.addAll_append,
    hDefaults]
  exact addAll_of_visitAll hMade.made
    (NameTable.isOf_empty graph) hNormal hVisits

end Assembly

------------------------------------------------------------
-- Scripts and All Their Requests
------------------------------------------------------------

namespace Compiler

variable {compiler : Compiler} {script : Script}

/- An order that is given has every key once. -/
theorem perm_keys_of_validate
    {ids : List NodeId}
    (hValid : compiler.validate description = .ok ids) :
    ids.Perm description.nodes.keys := by
  rcases validate_eq_ok_iff.mp hValid with
    ⟨graph, places, hGraph, hOrder, rfl⟩
  exact Graph.perm_idsAt hGraph
    (Graph.perm_range_of_order hGraph hOrder)

/-
  The calls that are due for the nodes in order are those that
  the script was made by, and its imports are what they all
  request.
-/
theorem imports_of_calls
    {calls : List Call}
    (hOrder :
      compiler.validate description =
        .ok (calls.map fun call => call.request.id))
    (hDue :
      ∀ call ∈ calls,
        call.IsDue compiler.settings compiler.registry
          description)
    (hCompile :
      (compiler.compile description).outcome = .ok script) :
    ImportBlock.ofDirectives
        (compiler.settings.imports.defaults
          ++ calls.flatMap (Call.requests compiler.settings)) =
        .ok script.imports ∧
      script.text =
        Text.unlines
          (Layout.lines compiler.settings description.remarks
            script.imports
            (calls.flatMap fun call => call.generated.lines)) ∧
      script.statistics.imports = script.imports.size := by
  rcases exists_isMadeOf hCompile with ⟨graph, blocks, hMade⟩
  have hAssemble := compile_eq_ok_iff.mp hCompile
  have hThreaded :=
    hMade.isThreaded (Assembly.events_assemble hAssemble hMade)
  -- Both lists of calls are for the nodes in the only order.
  have hIds := hThreaded.isSorted.symm.trans hOrder
  have hCalls : blocks.map (Block.call compiler.settings) = calls :=
    Call.eq_of_ids_eq hThreaded.isDue hDue
      (Except.ok.inj hIds)
  refine ⟨?_, ?_, ?_⟩
  · rw [← hCalls, List.flatMap_map]
    exact Assembly.ofDirectives_of_assemble hAssemble hMade
  · rw [← hCalls]
    exact hThreaded.text_eq
  · rcases Assembly.assemble_eq_ok_iff.mp hAssemble with
      ⟨-, _, _, _, -, -, -, rfl⟩
    rfl

/-
  The imports of a script are those of one flat list of
  requests: those for every script, and behind them, node by
  node, those of the block and those for its tag. Where nothing
  else stands in the way, there is a script exactly if they can
  all be added one by one, for which their order makes no
  difference. Its import lines are then the requests in their
  normal forms, the first one for every module, and there are
  as many of them as modules.
-/
theorem compile_flattens_imports
    (compiler : Compiler)
    (description : Description)
    (calls : List Call)
    (hCheck : compiler.settings.check.outcome = .ok ())
    (hOrder :
      compiler.validate description =
        .ok (calls.map fun call => call.request.id))
    (hNamed : description.IsWellNamed)
    (hDue :
      ∀ call ∈ calls,
        call.IsDue compiler.settings compiler.registry
          description) :
    let settings := compiler.settings
    let requests :=
      settings.imports.defaults
        ++ calls.flatMap (Call.requests settings)
    let addsUp (requests : List Directive) : Prop :=
      ∃ imports,
        requests.foldlM ImportBlock.add .empty = .ok imports
    ((∃ script,
      (compiler.compile description).outcome = .ok script) ↔
        addsUp requests) ∧
      (∀ script,
        (compiler.compile description).outcome = .ok script →
          requests.foldlM ImportBlock.add .empty =
              .ok script.imports ∧
            script.imports.directives =
              ImportBlock.firsts requests ∧
            script.imports.lines =
              (ImportBlock.firsts requests).map
                Directive.render ∧
            script.text =
              Text.unlines
                (Layout.lines settings description.remarks
                  script.imports
                  (calls.flatMap fun call =>
                    call.generated.lines)) ∧
            script.statistics.imports =
              (requests.map fun request =>
                request.normalized.path).toFinset.card) ∧
      ∀ other,
        other.Perm requests →
          (addsUp other ↔ addsUp requests) := by
  intro settings requests addsUp
  have hAddsUp (requests : List Directive) :
      addsUp requests ↔
        ∃ imports,
          ImportBlock.ofDirectives requests = .ok imports := by
    simp only [addsUp, ImportBlock.ofDirectives,
      ImportBlock.addAll_eq_foldlM]
  refine ⟨⟨?_, ?_⟩, ?_, ?_⟩
  · rintro ⟨script, hCompile⟩
    exact (hAddsUp requests).mpr
      ⟨_, (imports_of_calls hOrder hDue hCompile).1⟩
  · intro hAll
    rcases (hAddsUp requests).mp hAll with ⟨imports, hImports⟩
    rcases validate_eq_ok_iff.mp hOrder with
      ⟨graph, places, hGraph, hPlaces, hIds⟩
    exact exists_compile_of_isServed hCheck
      (Graph.exists_ofDescription_iff_isLinked.mp
        ⟨graph, hGraph⟩)
      ((Graph.exists_order_iff_isAcyclic hGraph).mp
        ⟨places, hPlaces⟩)
      hNamed
      ⟨perm_keys_of_validate hOrder, hDue,
        (ImportBlock.ofDirectives_eq_ok_iff.mp hImports).1⟩
  · intro script hCompile
    rcases imports_of_calls hOrder hDue hCompile with
      ⟨hImports, hText, hCount⟩
    have hFirsts :
        script.imports.directives =
          ImportBlock.firsts requests :=
      (ImportBlock.ofDirectives_eq_ok_iff.mp hImports).2
    refine ⟨?_, hFirsts, ?_, hText, ?_⟩
    · rw [← ImportBlock.addAll_eq_foldlM]
      exact hImports
    · rw [ImportBlock.lines, hFirsts]
    · rw [hCount, ImportBlock.size_eq, hFirsts,
        ImportBlock.length_firsts]
  · intro other hPerm
    rw [hAddsUp, hAddsUp]
    exact ImportBlock.exists_ofDirectives_congr hPerm

/- A model behind a loader, which share some imports. -/
theorem compile_of_shared_imports :
    let whole : Description :=
      ((Description.empty.putNode ⟨"a"⟩ "DataLoader" .empty
        ).putNode ⟨"b"⟩ "ModelTraining" .empty
        ).connect ⟨"a"⟩ ⟨"b"⟩
    let compiler := ofSettings .standard
    ∃ (calls : List Call) (script : Script),
      (compiler.settings.check.outcome = .ok () ∧
          compiler.validate whole =
            .ok (calls.map fun call => call.request.id) ∧
          whole.IsWellNamed ∧
          ∀ call ∈ calls,
            call.IsDue compiler.settings compiler.registry
              whole) ∧
        (compiler.compile whole).outcome = .ok script ∧
          (compiler.settings.imports.defaults
              ++ calls.flatMap
                (Call.requests compiler.settings)).foldlM
              ImportBlock.add .empty =
            .ok script.imports := by
  intro whole compiler
  have hCompile :
      ∃ script, (compiler.compile whole).outcome = .ok script := by
    apply exists_compile_of_rank fun id =>
      if id.text = "b" then 1 else 0
    · rfl
    · rfl
    · decide
    · decide
    · exact ⟨by decide, by decide⟩
  rcases hCompile with ⟨script, hScript⟩
  rcases exists_calls hScript with ⟨calls, hThreaded, -⟩
  have hCheck := check_of_compile hScript
  have hNamed := isWellNamed_of_compile hScript
  have hAll :=
    compile_flattens_imports compiler whole calls hCheck
      hThreaded.isSorted hNamed hThreaded.isDue
  exact ⟨calls, script,
    ⟨hCheck, hThreaded.isSorted, hNamed, hThreaded.isDue⟩,
    hScript, (hAll.2.1 script hScript).1⟩

end Compiler

end PipelineScript
