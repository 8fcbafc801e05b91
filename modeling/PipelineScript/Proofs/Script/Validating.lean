import PipelineScript.Proofs.Script.Restricting
import PipelineScript.Proofs.Script.Strictness

/-
  What checking a description tells of compiling it.

  A script has the order that the check finds, and where the
  check fails, compiling fails with the same error before any
  generator is called. Where there is an order, what can still
  stop the generators of the known kinds is something wrong
  with the settings, a name that cannot be given, imports that
  do not go together, or a strict check.

  Key definitions include:
    * `Description.Obstacle`

  Key theorems include:
    * `Assembly.obstacle_of_visit`
    * `Compiler.obstacle_of_compile`
    * `Compiler.compile_of_validate_error`
    * `Compiler.validate_agrees_with_compile`
-/

namespace PipelineScript

------------------------------------------------------------
-- Obstacles
------------------------------------------------------------

/-
  Why a description that has an order does not become a script
  of the generators of the known kinds.
-/
inductive Description.Obstacle
    (settings : Settings)
    (description : Description) : CompileError → Prop where
  | settings {problem : SettingsProblem}
      (hCheck : settings.check.outcome = .error problem) :
      Obstacle settings description
        (.validation (.settings problem))
  | reserved {id : NodeId} {name : String}
      (hName : description.nameOf? id = some name)
      (hReserved : name ∈ reservedNames) :
      Obstacle settings description
        (.validation (.reservedIdentifier id name))
  | clash {owner id : NodeId} {name : String}
      (hOwner : description.nameOf? owner = some name)
      (hName : description.nameOf? id = some name)
      (hDiffer : owner ≠ id) :
      Obstacle settings description
        (.validation (.identifierClash owner id name))
  | imports {error : CompileError}
      (hFault :
        ImportBlock.Fault
          ((description.requests settings).map
            Directive.normalized)
          error) :
      Obstacle settings description error
  | unsupported {id : NodeId} {key name : String}
      (hStrict : settings.strictModels = true)
      (hFault :
        description.faultAt? id =
          some (.unsupportedConfiguration id.text key name)) :
      Obstacle settings description
        (.unsupportedConfiguration id.text key name)

variable {settings : Settings} {description : Description}
variable {graph : Graph} {error : CompileError}

/- No obstacle is a cycle or a connection that leads nowhere. -/
theorem Description.Obstacle.ne_structural
    (hObstacle : description.Obstacle settings error) :
    (∀ waiting, error ≠ .cyclicGraph waiting) ∧
      ∀ connection endpoint id,
        error ≠
          .validation
            (.danglingConnection connection endpoint id) := by
  cases hObstacle with
  | imports hFault => cases hFault <;> simp [ImportBlock.conflict]
  | _ => simp

/- What a block requests, the description requests. -/
theorem Block.requests_subset
    {block : Block}
    (hGraph : Graph.ofDescription description = .ok graph)
    (hNode : graph.nodes[block.place]? = some block.node)
    (hGenerate :
      (Registry.standard.generate
        (block.request settings)).outcome =
          .ok block.generated) :
    block.requests settings ⊆ description.requests settings := by
  have hRecord :=
    (Graph.getElem?_nodes_of_ofDescription hGraph hNode).2
  have hValue :
      ⟨block.node.kind, block.node.options⟩ ∈
        description.nodes.values :=
    List.mem_map.mpr
      ⟨_, Table.get?_eq_some_iff.mp hRecord, rfl⟩
  intro request hRequest
  rw [Block.requests,
    (Registry.becomes_of_generate hGenerate).2] at hRequest
  exact List.mem_append_right _
    (List.mem_flatMap.mpr ⟨_, hValue, hRequest⟩)

namespace Assembly

variable {place : Nat} {node : Node} {places : List Nat}
variable {start progress : Progress}

/- What earlier blocks requested, the description requests. -/
theorem Visited.directives_subset
    {blocks : List Block}
    (hGraph : Graph.ofDescription description = .ok graph)
    (hStart :
      start.imports.directives ⊆
        (description.requests settings).map
          Directive.normalized)
    (hVisited :
      Visited settings .standard graph start blocks progress) :
    progress.imports.directives ⊆
      (description.requests settings).map
        Directive.normalized := by
  have hOwn :
      blocks.flatMap (Block.requests settings) ⊆
        description.requests settings := by
    intro request hRequest
    rcases List.mem_flatMap.mp hRequest with
      ⟨block, hBlock, hOwn⟩
    have hMade := hVisited.made block hBlock
    exact Block.requests_subset hGraph hMade.node_eq
      hMade.generated_eq hOwn
  intro kept hKept
  rcases (hVisited.mem_imports kept).mp hKept with
    hKept | hKept
  · exact hStart hKept
  · exact List.map_subset _ hOwn hKept

/-
  A name that belongs to some node, while this place has none,
  belongs to another node, which has the same name.
-/
theorem Visited.clash_of_owner
    {blocks : List Block}
    (hGraph : Graph.ofDescription description = .ok graph)
    (hNode : graph.nodes[place]? = some node)
    (hNames : start.names = .empty)
    (hVisited :
      Visited settings .standard graph start blocks progress)
    (hNew : progress.names.get? place = none)
    {name : String}
    {owner : NodeId}
    (hOwner : progress.names.owner? name = some owner) :
    description.nameOf? owner = some name ∧
      owner ≠ node.id := by
  have hLists :=
    hVisited.lists [] (hNames ▸ NameTable.lists_empty)
  rcases hLists.owner?_eq_some_iff.mp hOwner with
    ⟨entry, hEntry, rfl, rfl⟩
  rcases List.mem_map.mp hEntry with ⟨block, hBlock, rfl⟩
  have hOther := (hVisited.made block hBlock).node_eq
  refine ⟨Graph.nameOf?_eq hGraph hOther, ?_⟩
  intro hId
  rw [hLists.get?_eq_none_iff,
    ← Graph.place_eq_of_id_eq hGraph hOther hNode hId] at hNew
  exact hNew (List.mem_map_of_mem hEntry)

/-
  A visit that fails for something else than its generator
  meets an obstacle.
-/
theorem obstacle_of_visit
    {blocks : List Block}
    (hGraph : Graph.ofDescription description = .ok graph)
    (hNode : graph.nodes[place]? = some node)
    (hNames : start.names = .empty)
    (hStart :
      start.imports.directives ⊆
        (description.requests settings).map
          Directive.normalized)
    (hVisited :
      Visited settings .standard graph start blocks progress)
    (hVisit :
      (visit settings .standard graph progress place
        node).outcome = .error error)
    (hOwn : ¬ error.isForeign) :
    description.Obstacle settings error := by
  have hName := Graph.nameOf?_eq hGraph hNode
  rcases visit_eq_error hVisit with hAssign | ⟨names, -, hRest⟩
  · cases NameTable.assign_eq_error_iff.mp hAssign with
    | reserved hReserved => exact .reserved hName hReserved
    | named => exact absurd rfl hOwn
    | taken hFree hPlace hOwner =>
        rcases hVisited.clash_of_owner hGraph hNode hNames
            hPlace hOwner with
          ⟨hSame, hDiffer⟩
        exact .clash hSame hName hDiffer
  rcases hRest with hInput | ⟨block, rfl, rfl, -, hRest⟩
  · exact absurd (isForeign_of_inputNames hInput) hOwn
  rcases hRest with hGenerate | ⟨hGenerate, hImports⟩
  · rcases NodeRecord.exists_of_fault?
        (Registry.fault?_of_generate_standard hGenerate).2 with
      ⟨key, name, rfl⟩
    exact absurd rfl hOwn
  · have hBlock :
        (block.requests settings).map Directive.normalized ⊆
          (description.requests settings).map
            Directive.normalized :=
      List.map_subset _
        (Block.requests_subset hGraph hNode hGenerate)
    apply Description.Obstacle.imports
    rcases bind_eq_error.mp hImports with
      hRequests | ⟨own, hRequests, hMerge⟩
    · exact (ImportBlock.fault_of_addAll hRequests).mono hBlock
    · have hNormal : own.IsNormal :=
        ImportBlock.isNormal_of_addAll
          ImportBlock.isNormal_empty hRequests
      apply (ImportBlock.fault_of_addAll hMerge).mono
      rw [hNormal.map_normalized]
      apply List.append_subset.mpr
        ⟨hVisited.directives_subset hGraph hStart, ?_⟩
      intro kept hKept
      apply hBlock
      simpa using
        (ImportBlock.mem_of_addAll hRequests kept).mp hKept

/-
  Making the blocks of an order fails for an obstacle, if it
  does not fail for a generator.
-/
theorem obstacle_of_generate
    (hGraph : Graph.ofDescription description = .ok graph)
    (hOrder : graph.order = .ok places)
    (hGenerate :
      (generate settings .standard graph places).outcome =
        .error error)
    (hOwn : ¬ error.isForeign) :
    description.Obstacle settings error := by
  have hDefaultsOf :
      settings.imports.defaults.map Directive.normalized ⊆
        (description.requests settings).map
          Directive.normalized :=
    List.map_subset _ (List.subset_append_left _ _)
  rcases generate_eq_error hGenerate with
    hDefaults | ⟨defaults, hDefaults, hRun⟩
  · exact .imports
      ((ImportBlock.fault_of_addAll hDefaults).mono
        hDefaultsOf)
  rcases visitAll_eq_error hRun with
    ⟨before, place, after, middle, node, rfl, hNode, hBefore,
      hVisit⟩
  have hPerm := Graph.perm_range_of_order hGraph hOrder
  have hPlaces : ∀ place ∈ before, place < graph.size := by
    intro other hOther
    exact List.mem_range.mp
      (hPerm.mem_iff.mp (List.mem_append_left _ hOther))
  have hNormal : defaults.IsNormal :=
    ImportBlock.isNormal_of_addAll ImportBlock.isNormal_empty
      hDefaults
  rcases exists_visited hPlaces hNormal
      (NameTable.isOf_empty graph) hBefore with
    ⟨blocks, rfl, hVisited⟩
  refine obstacle_of_visit hGraph hNode rfl ?_ hVisited hVisit
    hOwn
  intro kept hKept
  apply hDefaultsOf
  simpa using
    (ImportBlock.mem_of_addAll hDefaults kept).mp hKept

end Assembly

namespace Compiler

variable {compiler : Compiler} {script : Script}

------------------------------------------------------------
-- Checking and Compiling
------------------------------------------------------------

/- A script has the order that the check finds. -/
theorem validate_of_compile
    (hCompile :
      (compiler.compile description).outcome = .ok script) :
    compiler.validate description = .ok script.order := by
  rcases exists_calls hCompile with ⟨calls, hThreaded, -⟩
  rw [hThreaded.order_eq]
  exact hThreaded.isSorted

/- What the check finds is the order of every script. -/
theorem order_eq_of_validate
    (hCompile :
      (compiler.compile description).outcome = .ok script)
    {ids : List NodeId}
    (hValid : compiler.validate description = .ok ids) :
    script.order = ids := by
  rw [validate_of_compile hCompile, Except.ok.injEq] at hValid
  exact hValid

/- What can still stop a description that has an order. -/
theorem obstacle_of_compile
    (hStandard : compiler.registry = .standard)
    {ids : List NodeId}
    (hValid : compiler.validate description = .ok ids)
    (hCompile :
      (compiler.compile description).outcome = .error error) :
    description.Obstacle compiler.settings error := by
  rcases validate_eq_ok_iff.mp hValid with
    ⟨graph, places, hGraph, hOrder, -⟩
  rw [compile_eq_error_iff, hStandard] at hCompile
  by_cases hForeign : error.isForeign
  · rcases Assembly.exists_request_of_assemble hCompile
        hForeign with
      ⟨request, hFor, hGenerate⟩
    rcases Registry.fault?_of_generate_standard hGenerate with
      ⟨hStrict, hFault⟩
    rcases NodeRecord.exists_of_fault? hFault with
      ⟨key, name, rfl⟩
    rw [hFor.layout_eq] at hStrict
    rw [← hFor.faultAt?_eq] at hFault
    exact .unsupported hStrict hFault
  · rcases Assembly.assemble_eq_error_iff.mp hCompile with
      ⟨problem, hCheck, rfl⟩ | ⟨-, hNone | ⟨other, hSame, hRest⟩⟩
    · exact .settings hCheck
    · rw [hGraph] at hNone
      cases hNone
    rw [hGraph, Except.ok.injEq] at hSame
    subst hSame
    rcases hRest with hNone | ⟨others, hSame, hGenerate⟩
    · rw [hOrder] at hNone
      cases hNone
    · rw [hOrder, Except.ok.injEq] at hSame
      subst hSame
      exact Assembly.obstacle_of_generate hGraph hOrder
        hGenerate hForeign

/-
  What cannot be ordered is not compiled either. All that is
  reported is what checking the settings reports, one change
  of the phase at most, and the error, whatever the generators
  are: none of them is called.
-/
theorem compile_of_validate_error
    (hCheck : compiler.settings.check.outcome = .ok ())
    (hValid : compiler.validate description = .error error) :
    ∃ phase,
      ∀ registry,
        Compiler.compile ⟨compiler.settings, registry⟩
            description =
          ⟨compiler.settings.check.events
              ++ (if phase = .initialized then []
                else [.phaseChanged .initialized phase])
              ++ [.assemblyFailed error,
                .phaseChanged phase .failed],
            .error error⟩ := by
  rcases validate_eq_error_iff.mp hValid with
    hGraph | ⟨graph, hGraph, hOrder⟩
  · refine ⟨.initialized, fun registry => ?_⟩
    rw [compile, Assembly.assemble,
      Assembly.conduct_of_ofDescription_error hCheck hGraph,
      Traced.bind_of_error rfl]
    simp
  · refine ⟨.graphBuilt, fun registry => ?_⟩
    rw [compile, Assembly.assemble,
      Assembly.conduct_of_order_error hCheck hGraph hOrder,
      Traced.bind_of_error rfl]
    simp

/- Checking settings is no call of a generator. -/
theorem generating_not_mem_check
    (settings : Settings)
    (id : NodeId)
    (name : String) :
    Event.generating id name ∉ settings.check.events := by
  unfold Settings.check
  split
  · simp [Traced.fail]
  · split
    · simp [Traced.emit]
    · simp [Traced.done]

/-
  Checking a description and compiling it agree. A script has
  the order that the check finds. Where the check fails and
  the settings are sound, compiling fails with the same error,
  and it does so before a generator is called: no call is
  reported, and with other generators nothing is different.
  Where the check finds an order and the generators are those
  that are built in, nothing is left of the structure to fail
  for. A failure is one of the settings, of a name, of the
  imports, or of a strict check.
-/
theorem validate_agrees_with_compile
    (compiler : Compiler)
    (description : Description) :
    (∀ script,
      (compiler.compile description).outcome = .ok script →
        compiler.validate description = .ok script.order) ∧
      (∀ error,
        compiler.validate description = .error error →
        compiler.settings.check.outcome = .ok () →
        (compiler.compile description).outcome =
            .error error ∧
          (∀ id name,
            .generating id name ∉
              (compiler.compile description).events) ∧
          ∀ registry,
            Compiler.compile ⟨compiler.settings, registry⟩
                description =
              compiler.compile description) ∧
      (compiler.registry = .standard →
        ∀ ids, compiler.validate description = .ok ids →
        ∀ error,
          (compiler.compile description).outcome =
            .error error →
          (∀ waiting, error ≠ .cyclicGraph waiting) ∧
            (∀ connection endpoint id,
              error ≠
                .validation
                  (.danglingConnection connection endpoint
                    id)) ∧
            description.Obstacle compiler.settings error) := by
  refine ⟨?_, ?_, ?_⟩
  · intro script hCompile
    exact validate_of_compile hCompile
  · intro error hValid hCheck
    rcases compile_of_validate_error hCheck hValid with
      ⟨phase, hStops⟩
    have hOwn := hStops compiler.registry
    refine ⟨?_, ?_, ?_⟩
    · exact congrArg Traced.outcome hOwn
    · intro id name hCalled
      rw [congrArg Traced.events hOwn] at hCalled
      have hNone :=
        generating_not_mem_check compiler.settings id name
      split at hCalled
      · simp [hNone] at hCalled
      · simp [hNone] at hCalled
    · intro registry
      exact (hStops registry).trans hOwn.symm
  · intro hStandard ids hValid error hCompile
    have hObstacle :=
      obstacle_of_compile hStandard hValid hCompile
    exact ⟨hObstacle.ne_structural.1,
      hObstacle.ne_structural.2, hObstacle⟩

/- A chain, a circle, and a node with a reserved name. -/
theorem compile_of_checked_descriptions :
    let pair :=
      (Description.empty.putNode ⟨"a"⟩ "DataLoader" .empty
        ).putNode ⟨"b"⟩ "ModelTraining" .empty
    let chain := pair.connect ⟨"a"⟩ ⟨"b"⟩
    let circle := chain.connect ⟨"b"⟩ ⟨"a"⟩
    let reserved :=
      Description.empty.putNode ⟨"size"⟩ "Batch" .empty
    let waiting := CompileError.cyclicGraph ["a", "b"]
    let refused :=
      CompileError.validation
        (.reservedIdentifier ⟨"size"⟩ "batch_size")
    let compiler := ofSettings .standard
    (∃ script,
      (compiler.compile chain).outcome = .ok script ∧
        compiler.validate chain = .ok script.order) ∧
      (compiler.validate circle = .error waiting ∧
        Settings.standard.check.outcome = .ok () ∧
        (compiler.compile circle).outcome = .error waiting ∧
        ∀ registry,
          Compiler.compile ⟨.standard, registry⟩ circle =
            compiler.compile circle) ∧
      compiler.registry = .standard ∧
        compiler.validate reserved = .ok [⟨"size"⟩] ∧
        (compiler.compile reserved).outcome = .error refused ∧
        reserved.Obstacle .standard refused := by
  intro pair chain circle reserved waiting refused compiler
  have hCheck : Settings.standard.check.outcome = .ok () := rfl
  have hChain :
      ∃ script, (compiler.compile chain).outcome = .ok script := by
    apply exists_compile_of_rank fun id =>
      if id.text = "b" then 1 else 0
    · rfl
    · rfl
    · decide
    · decide
    · exact ⟨by decide, by decide⟩
  rcases hChain with ⟨script, hScript⟩
  have hCircle : compiler.validate circle = .error waiting := by
    decide +kernel
  have hReserved :
      compiler.validate reserved = .ok [⟨"size"⟩] := by
    decide +kernel
  have hRefused :
      (compiler.compile reserved).outcome = .error refused := by
    have hGraph :
        Graph.ofDescription reserved =
          .ok ⟨Graph.nodesOf reserved, []⟩ := rfl
    have hOrder :
        Graph.order ⟨Graph.nodesOf reserved, []⟩ = .ok [0] := by
      decide +kernel
    have hGenerate :
        (Assembly.generate .standard .standard
            ⟨Graph.nodesOf reserved, []⟩ [0]).outcome =
          .error refused := by
      rfl
    rw [compile_eq_error_iff, Assembly.assemble_eq_error_iff]
    exact Or.inr ⟨hCheck, Or.inr ⟨_, hGraph,
      Or.inr ⟨[0], hOrder, hGenerate⟩⟩⟩
  rcases (validate_agrees_with_compile compiler circle).2.1
      waiting hCircle hCheck with
    ⟨hFails, -, hSame⟩
  exact ⟨⟨script, hScript,
      (validate_agrees_with_compile compiler chain).1 script
        hScript⟩,
    ⟨hCircle, hCheck, hFails, hSame⟩, rfl, hReserved, hRefused,
    ((validate_agrees_with_compile compiler reserved).2.2 rfl
      _ hReserved refused hRefused).2.2⟩

end Compiler

end PipelineScript
