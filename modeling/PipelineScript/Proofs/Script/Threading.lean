import PipelineScript.Proofs.Script.Compiling
import PipelineScript.Proofs.Script.Visiting

/-
  How the names of nodes are handed on to generators.

  The generator of a node is told the names of the nodes that
  its connections come from, one for each connection and in
  their order. All of these nodes were visited before, and so
  no node is ever visited out of turn.

  Key definitions include:
    * `Problem.isOutOfTurn`
    * `CompileError.isForeign`
    * `Request.IsFor`
    * `Call`
    * `Script.IsThreaded`

  Key theorems include:
    * `Block.isFor_request`
    * `Assembly.exists_request_of_visitAll`
    * `Assembler.assemble_threads_inputs`
-/

namespace PipelineScript

------------------------------------------------------------
-- What Generators Are Told
------------------------------------------------------------

/- A node was visited before its input, or was visited twice. -/
def Problem.isOutOfTurn : Problem → Bool
  | .visitedBeforeInput _ _ => true
  | .alreadyNamed _ _ => true
  | _ => false

/- An error that only generators come up with. -/
def CompileError.isForeign : CompileError → Bool
  | .validation problem => problem.isOutOfTurn
  | .unsupportedConfiguration _ _ _ => true
  | .cyclicGraph _ => false
  | .importConflict _ _ _ => false

/- The name that the node under a key has in a script. -/
def Description.nameOf?
    (description : Description)
    (id : NodeId) : Option String :=
  (description.nodes.get? id).map fun node =>
    nodeName node.kind id

/-
  What the generator of a node is told: the node as it was
  described, its name, and the names of the nodes that its
  connections come from, one for each of them.
-/
structure Request.IsFor
    (settings : Settings)
    (description : Description)
    (request : Request) : Prop where
  node_eq :
    description.nodes.get? request.id =
      some ⟨request.kind, request.options⟩
  name_eq : request.name = nodeName request.kind request.id
  inputs_eq :
    request.inputs.map some =
      (description.sourcesOf request.id).map description.nameOf?
  layout_eq : request.layout = settings.layout

/- What a generator was told, and what it made of it. -/
structure Call where
  request : Request
  generated : Generated

/- The generator for the tag of a node was called as it is due. -/
structure Call.IsDue
    (settings : Settings)
    (registry : Registry)
    (description : Description)
    (call : Call) : Prop where
  isFor : call.request.IsFor settings description
  generated_eq :
    ((registry.resolve call.request.kind.tag).generate
        call.request).outcome =
      .ok call.generated

/-
  A script that was made by these calls, and by no others:
  there is one for every node, in the order of the nodes. The
  body is what they made, and every node has its name.
-/
structure Script.IsThreaded
    (settings : Settings)
    (registry : Registry)
    (description : Description)
    (calls : List Call)
    (events : List Event)
    (script : Script) : Prop where
  isSorted :
    Compiler.validate ⟨settings, registry⟩ description =
      .ok (calls.map fun call => call.request.id)
  perm :
    (calls.map fun call => call.request.id).Perm
      description.nodes.keys
  isDue :
    ∀ call ∈ calls, call.IsDue settings registry description
  events_eq :
    events =
      Assembly.opening settings
        ++ calls.flatMap (fun call =>
          (registry.generate call.request).events)
        ++ Assembly.closing
  text_eq :
    script.text =
      Text.unlines
        (Layout.lines settings description.remarks
          script.imports
          (calls.flatMap fun call => call.generated.lines))
  order_eq : script.order = calls.map fun call => call.request.id
  names_eq :
    script.names =
      calls.map fun call => (call.request.id, call.request.name)

------------------------------------------------------------
-- Places and Keys
------------------------------------------------------------

variable {settings : Settings} {registry : Registry}
variable {description : Description} {graph : Graph}

namespace Graph

/- The node in a place is the one that was described there. -/
theorem getElem?_nodes_of_ofDescription
    (hGraph : ofDescription description = .ok graph)
    {place : Nat}
    {node : Node}
    (hNode : graph.nodes[place]? = some node) :
    description.nodes.keys[place]? = some node.id ∧
      description.nodes.get? node.id =
        some ⟨node.kind, node.options⟩ := by
  constructor
  · exact (getElem?_keys_eq_some_iff hGraph).mpr
      ⟨node, hNode, rfl⟩
  · rw [(ofDescription_eq_ok_iff.mp hGraph).1, nodesOf,
      List.getElem?_map] at hNode
    rcases Option.map_eq_some_iff.mp hNode with
      ⟨⟨id, record⟩, hEntry, rfl⟩
    exact Table.get?_eq_some_iff.mpr
      (List.mem_of_getElem? hEntry)

/- A node has the name of its key. -/
theorem nameOf?_eq
    (hGraph : ofDescription description = .ok graph)
    {place : Nat}
    {node : Node}
    (hNode : graph.nodes[place]? = some node) :
    description.nameOf? node.id =
      some (nodeName node.kind node.id) := by
  rw [Description.nameOf?,
    (getElem?_nodes_of_ofDescription hGraph hNode).2]
  rfl

/- A key stands in one place only. -/
theorem place_eq_of_id_eq
    (hGraph : ofDescription description = .ok graph)
    {place other : Nat}
    {node next : Node}
    (hNode : graph.nodes[place]? = some node)
    (hNext : graph.nodes[other]? = some next)
    (hId : node.id = next.id) :
    place = other := by
  have hFirst :=
    (getElem?_nodes_of_ofDescription hGraph hNode).1
  have hSecond :=
    (getElem?_nodes_of_ofDescription hGraph hNext).1
  rw [← hId] at hSecond
  rcases List.getElem?_eq_some_iff.mp hFirst with ⟨hLt, -⟩
  exact (List.getElem?_inj hLt description.nodes.distinct).mp
    (hFirst.trans hSecond.symm)

/- The name of a place is the name of the key in that place. -/
theorem nameAt?_eq
    (hGraph : ofDescription description = .ok graph)
    (place : Nat) :
    graph.nameAt? place =
      description.nodes.keys[place]?.bind
        description.nameOf? := by
  cases hNode : graph.nodes[place]? with
  | some node =>
      rcases getElem?_nodes_of_ofDescription hGraph hNode with
        ⟨hKey, hFound⟩
      rw [nameAt?, hNode, hKey, Option.bind_some,
        Description.nameOf?, hFound]
      rfl
  | none =>
      have hKey : description.nodes.keys[place]? = none := by
        cases hKey : description.nodes.keys[place]? with
        | none => rfl
        | some id =>
            rcases (getElem?_keys_eq_some_iff hGraph).mp
                hKey with
              ⟨node, hSome, -⟩
            rw [hNode] at hSome
            exact absurd hSome (by simp)
      rw [nameAt?, hNode, hKey]
      rfl

/- The names of inputs are those of the sources, in order. -/
theorem map_nameAt?_inputsOf
    (hGraph : ofDescription description = .ok graph)
    {place : Nat}
    {node : Node}
    (hNode : graph.nodes[place]? = some node) :
    (graph.inputsOf place).map graph.nameAt? =
      (description.sourcesOf node.id).map
        description.nameOf? := by
  have hKey :=
    (getElem?_nodes_of_ofDescription hGraph hNode).1
  calc
    (graph.inputsOf place).map graph.nameAt?
      = ((graph.inputsOf place).map
            (description.nodes.keys[·]?)).map
          (·.bind description.nameOf?) := by
        rw [List.map_map]
        exact List.map_congr_left fun input _ =>
          nameAt?_eq hGraph input
    _ = ((description.sourcesOf node.id).map some).map
          (·.bind description.nameOf?) := by
        rw [map_getElem?_inputsOf hGraph hKey]
    _ = (description.sourcesOf node.id).map
          description.nameOf? := by
        rw [List.map_map]
        rfl

end Graph

/- A block is made of what its node is due to be told. -/
theorem Block.isFor_request
    (hGraph : Graph.ofDescription description = .ok graph)
    {block : Block}
    (hNode : graph.nodes[block.place]? = some block.node)
    (hInputs :
      (graph.inputsOf block.place).map graph.nameAt? =
        block.inputs.map some) :
    (block.request settings).IsFor settings description where
  node_eq :=
    (Graph.getElem?_nodes_of_ofDescription hGraph hNode).2
  name_eq := rfl
  inputs_eq := by
    have hSources := Graph.map_nameAt?_inputsOf hGraph hNode
    rw [hInputs] at hSources
    exact hSources
  layout_eq := rfl

/- A registry has the generator for the tag make the block. -/
theorem Registry.outcome_generate
    (registry : Registry)
    (request : Request) :
    (registry.generate request).outcome =
      ((registry.resolve request.kind.tag).generate
        request).outcome := by
  rw [generate, Traced.outcome_bind]
  rfl

------------------------------------------------------------
-- Foreign Errors
------------------------------------------------------------

/- A place without a name is not named a second time. -/
theorem NameTable.isForeign_of_assign
    {table : NameTable}
    {place : Nat}
    {node : NodeId}
    {name : String}
    {error : CompileError}
    (hNew : table.get? place = none)
    (hAssign : table.assign place node name = .error error) :
    error.isForeign = false := by
  cases assign_eq_error_iff.mp hAssign with
  | reserved => rfl
  | named hFree hPlace =>
      rw [hNew] at hPlace
      cases hPlace
  | taken => rfl

/- Taking up imports has errors of its own. -/
theorem ImportBlock.isForeign_of_addAll
    {imports : ImportBlock}
    {directives : List Directive}
    {error : CompileError}
    (hAdd : imports.addAll directives = .error error) :
    error.isForeign = false := by
  rcases addAll_eq_error hAdd with rfl | ⟨_, _, rfl⟩
  · rfl
  · rfl

namespace Assembly

variable {place : Nat} {node : Node} {places : List Nat}
variable {progress start : Progress} {error : CompileError}

/- Names of inputs are missed as for a visit out of turn. -/
theorem isForeign_of_inputNames
    {names : NameTable}
    (hError :
      inputNames graph names node places = .error error) :
    error.isForeign := by
  induction places with
  | nil => cases hError
  | cons place places ih =>
      rw [inputNames, bind_eq_error] at hError
      rcases hError with hFirst | ⟨name, -, hRest⟩
      · unfold inputName at hFirst
        split at hFirst
        · cases hFirst
        · rw [← Except.error.inj hFirst]
          rfl
      · rw [bind_eq_error] at hRest
        rcases hRest with hRest | ⟨others, -, hDone⟩
        · exact ih hRest
        · cases hDone

/-
  Where all inputs of a new place have their names, foreign
  errors are those of the generator.
-/
theorem exists_request_of_visit
    (hGraph : Graph.ofDescription description = .ok graph)
    (hNode : graph.nodes[place]? = some node)
    (hOf : progress.names.IsOf graph)
    (hNew : progress.names.get? place = none)
    (hReady :
      ∀ input ∈ graph.inputsOf place,
        progress.names.get? input ≠ none)
    (hVisit :
      (visit settings registry graph progress place
        node).outcome = .error error)
    (hForeign : error.isForeign) :
    ∃ request : Request,
      request.IsFor settings description ∧
        (registry.generate request).outcome =
          .error error := by
  rcases visit_eq_error hVisit with hName | ⟨names, hNames, hRest⟩
  · rw [NameTable.isForeign_of_assign hNew hName] at hForeign
    exact absurd hForeign Bool.false_ne_true
  rcases hRest with hInput | ⟨block, rfl, rfl, hInputs, hRest⟩
  · rcases inputNames_eq_error hInput with
      ⟨input, hInput, hNone⟩
    rw [NameTable.get?_of_assign hNames] at hNone
    split at hNone
    · cases hNone
    · exact absurd hNone (hReady input hInput)
  rcases hRest with hGenerate | ⟨-, hImports⟩
  · have hNames : (graph.inputsOf block.place).map graph.nameAt? =
        block.inputs.map some :=
      map_nameAt?_of_map_get? (hOf.assign hNode hNames)
        hInputs
    exact ⟨block.request settings,
      Block.isFor_request hGraph hNode hNames, hGenerate⟩
  · have hOwn : error.isForeign = false := by
      rcases bind_eq_error.mp hImports with hOwn | ⟨_, -, hMerge⟩
      · exact ImportBlock.isForeign_of_addAll hOwn
      · exact ImportBlock.isForeign_of_addAll hMerge
    rw [hOwn] at hForeign
    exact absurd hForeign Bool.false_ne_true

/- The same holds of all visits, when places are in order. -/
theorem exists_request_of_visitAll
    (hGraph : Graph.ofDescription description = .ok graph)
    (hOrder : graph.order = .ok places)
    (hNames : start.names = .empty)
    (hNormal : start.imports.IsNormal)
    (hRun :
      (visitAll settings registry graph start
        places).outcome = .error error)
    (hForeign : error.isForeign) :
    ∃ request : Request,
      request.IsFor settings description ∧
        (registry.generate request).outcome =
          .error error := by
  rcases visitAll_eq_error hRun with
    ⟨before, place, after, middle, node, rfl, hNode, hBefore,
      hVisit⟩
  have hPerm := Graph.perm_range_of_order hGraph hOrder
  have hPlaces : ∀ place ∈ before, place < graph.size := by
    intro other hOther
    exact List.mem_range.mp
      (hPerm.mem_iff.mp (List.mem_append_left _ hOther))
  have hOf : start.names.IsOf graph := by
    rw [hNames]
    exact NameTable.isOf_empty graph
  rcases exists_visited hPlaces hNormal hOf hBefore with
    ⟨blocks, rfl, hVisited⟩
  have hLists :=
    hVisited.lists [] (hNames ▸ NameTable.lists_empty)
  -- The places that have a name are those visited before.
  have hTaken :
      ([] ++ blocks.map Block.entry).map NameEntry.place =
        blocks.map Block.place := by
    rw [List.nil_append, List.map_map]
    rfl
  apply exists_request_of_visit hGraph hNode
    (hVisited.isOf hNames) ?_ ?_ hVisit hForeign
  · rw [hLists.get?_eq_none_iff, hTaken]
    have hNodup := hPerm.nodup_iff.mpr List.nodup_range
    rw [List.nodup_append] at hNodup
    intro hMem
    exact hNodup.2.2 place hMem place List.mem_cons_self rfl
  · have hReady :
        graph.Ready []
          (blocks.map Block.place ++ place :: after) :=
      Graph.ready_of_isOrder
        (Graph.isClosed_of_ofDescription hGraph)
        (Graph.isOrder_of_order hGraph hOrder)
    intro input hInput
    rw [Ne, hLists.get?_eq_none_iff, hTaken, not_not]
    exact hReady.mem_of_mem_inputsOf hInput

/- No part of a run but a generator has foreign errors. -/
theorem exists_request_of_assemble
    (hAssemble :
      (assemble settings registry description).outcome =
        .error error)
    (hForeign : error.isForeign) :
    ∃ request : Request,
      request.IsFor settings description ∧
        (registry.generate request).outcome =
          .error error := by
  rcases assemble_eq_error_iff.mp hAssemble with
    ⟨fault, -, rfl⟩ | ⟨-, hGraph | ⟨graph, hGraph, hRest⟩⟩
  · exact absurd hForeign Bool.false_ne_true
  · rcases Graph.exists_dangling_of_ofDescription hGraph with
      ⟨_, _, _, rfl⟩
    exact absurd hForeign Bool.false_ne_true
  rcases hRest with hOrder | ⟨places, hOrder, hGenerate⟩
  · rcases Graph.order_eq_error_iff.mp hOrder with
      ⟨_, -, rfl⟩
    exact absurd hForeign Bool.false_ne_true
  rcases generate_eq_error hGenerate with
    hDefaults | ⟨defaults, hDefaults, hRun⟩
  · rw [ImportBlock.isForeign_of_addAll hDefaults] at hForeign
    exact absurd hForeign Bool.false_ne_true
  · have hNormal : defaults.IsNormal :=
      ImportBlock.isNormal_of_addAll ImportBlock.isNormal_empty
        hDefaults
    exact exists_request_of_visitAll hGraph hOrder rfl hNormal
      hRun hForeign

end Assembly

------------------------------------------------------------
-- Scripts and Their Calls
------------------------------------------------------------

/- The call that a block was made by. -/
def Block.call
    (settings : Settings)
    (block : Block) : Call where
  request := block.request settings
  generated := block.generated

/- A script that is made of blocks was made by their calls. -/
theorem Script.IsMadeOf.isThreaded
    {blocks : List Block}
    {script : Script}
    (hMade :
      script.IsMadeOf settings registry description graph
        blocks)
    {events : List Event}
    (hEvents :
      events =
        Assembly.opening settings
          ++ blocks.flatMap (fun block =>
            (registry.generate (block.request settings)).events)
          ++ Assembly.closing) :
    script.IsThreaded settings registry description
      (blocks.map (Block.call settings)) events := by
  have hIds :
      (blocks.map (Block.call settings)).map
          (fun call => call.request.id) =
        (blocks.map Block.node).map Node.id := by
    rw [List.map_map, List.map_map]
    rfl
  have hOrder :
      graph.idsAt (blocks.map Block.place) =
        (blocks.map Block.node).map Node.id := by
    rw [Graph.idsAt, List.filterMap_map, List.map_map]
    apply List.filterMap_eq_map_iff_forall_eq_some.mpr
    intro block hBlock
    simp [(hMade.made block hBlock).node_eq]
  refine ⟨?_, ?_, ?_, ?_, ?_, ?_, ?_⟩
  · rw [hIds, ← hOrder, Compiler.validate, hMade.graph_eq]
    change (graph.order >>= fun order =>
      pure (graph.idsAt order)) = _
    rw [hMade.order_eq]
    rfl
  · rw [hIds, ← Graph.map_id_nodesOf,
      ← (Graph.ofDescription_eq_ok_iff.mp hMade.graph_eq).1]
    exact hMade.nodes_perm.map Node.id
  · intro call hCall
    rcases List.mem_map.mp hCall with ⟨block, hBlock, rfl⟩
    have hBlockMade := hMade.made block hBlock
    refine ⟨?_, ?_⟩
    · exact Block.isFor_request hMade.graph_eq
        hBlockMade.node_eq hBlockMade.inputs_eq
    · exact (registry.outcome_generate _).symm.trans
        hBlockMade.generated_eq
  · rw [hEvents, List.flatMap_map]
    rfl
  · rw [hMade.text_eq, List.flatMap_map]
    rfl
  · rw [hMade.ids_eq, hIds, List.map_map]
    rfl
  · rw [hMade.names_eq, List.map_map]
    rfl

namespace Assembler

/- An assembler that was not used puts a script together. -/
theorem assemble_new
    (settings : Settings)
    (registry : Registry)
    (description : Description) :
    ((new settings registry).assemble description).2 =
      Assembly.assemble settings registry description :=
  rfl

/-
  Whatever the settings and the generators are, no node is
  visited before its input or a second time: an error that
  says so is one that a generator made up by itself, when it
  was called as it is due. A script is made by calling the
  generator of every node once, in the order of the nodes,
  with the names of the nodes that its connections come from.
-/
theorem assemble_threads_inputs
    (assembler : Assembler)
    (description : Description) :
    (∀ problem : Problem,
      problem.isOutOfTurn →
      (assembler.assemble description).2.outcome =
        .error (.validation problem) →
      ∃ request : Request,
        request.IsFor assembler.settings description ∧
          ((assembler.registry.resolve
              request.kind.tag).generate request).outcome =
            .error (.validation problem)) ∧
      ∀ script,
        (assembler.assemble description).2.outcome =
          .ok script →
        ∃ calls,
          script.IsThreaded assembler.settings
            assembler.registry description calls
            (assembler.assemble description).2.events := by
  by_cases hPhase : assembler.phase = .initialized
  · simp only [assemble, hPhase, if_true]
    constructor
    · intro problem hProblem hAssemble
      rcases Assembly.exists_request_of_assemble hAssemble
          hProblem with
        ⟨request, hFor, hGenerate⟩
      exact ⟨request, hFor,
        (Registry.outcome_generate _ _).symm.trans hGenerate⟩
    · intro script hAssemble
      rcases Assembly.exists_isMadeOf hAssemble with
        ⟨graph, blocks, hMade⟩
      exact ⟨blocks.map (Block.call assembler.settings),
        hMade.isThreaded
          (Assembly.events_assemble hAssemble hMade)⟩
  · -- An assembler that was used before does not run at all.
    simp only [assemble, hPhase, if_false]
    constructor
    · intro problem hProblem hSpent
      cases hSpent
      exact absurd hProblem Bool.false_ne_true
    · intro script hSpent
      cases hSpent

/-
  Three connections lead from two loaders to a sink. Alone, a
  sink is given to a generator that makes up a problem.
-/
theorem assemble_of_fan_in :
    let sink : NodeRecord :=
      ⟨.unknown "Sink" (by decide), .empty⟩
    let fanIn : Description :=
      { pipelineId := none
        nodes :=
          ⟨[(⟨"a"⟩, ⟨.dataLoader, .empty⟩),
            (⟨"b"⟩, ⟨.dataLoader, .empty⟩),
            (⟨"c"⟩, sink)], by decide⟩
        connections :=
          ⟨[(⟨"x"⟩, .between ⟨"b"⟩ ⟨"c"⟩),
            (⟨"y"⟩, .between ⟨"a"⟩ ⟨"c"⟩),
            (⟨"z"⟩, .between ⟨"b"⟩ ⟨"c"⟩)], by decide⟩
        remarks := [] }
    let alone : Description :=
      { Description.empty with
        nodes := ⟨[(⟨"c"⟩, sink)], by decide⟩ }
    let assembler := Assembler.new .standard .standard
    let problem := Problem.alreadyNamed ⟨"c"⟩ "sink_c"
    let forging :=
      Assembler.new .standard
        ⟨.empty, "Forger", fun _ => .fail (.validation problem)⟩
    (∃ script calls,
      (assembler.assemble fanIn).2.outcome = .ok script ∧
        script.IsThreaded .standard .standard fanIn calls
          (assembler.assemble fanIn).2.events ∧
        ∀ call ∈ calls,
          call.request.id = ⟨"c"⟩ →
            call.request.inputs =
              ["dataloader_b", "dataloader_a",
                "dataloader_b"]) ∧
      problem.isOutOfTurn ∧
      (forging.assemble alone).2.outcome =
        .error (.validation problem) ∧
      ∃ request : Request,
        request.IsFor .standard alone ∧
          ((forging.registry.resolve
              request.kind.tag).generate request).outcome =
            .error (.validation problem) := by
  intro sink fanIn alone assembler problem forging
  have hLeads :
      ∀ {first last : NodeId},
        fanIn.Leads first last →
          first ≠ ⟨"c"⟩ ∧ last = ⟨"c"⟩ := by
    rintro _ _ ⟨connection, hConnection, rfl, rfl⟩
    revert connection
    decide
  have hCompile :
      ∃ script,
        ((Compiler.ofSettings .standard).compile
          fanIn).outcome = .ok script := by
    refine Compiler.exists_compile rfl rfl ?_ ?_ ?_ ?_ ⟨?_, ?_⟩
    · rw [Description.IsLinked]
      decide
    · -- Nothing leads on from the sink.
      intro id hCycle
      rcases Relation.TransGen.head'_iff.mp hCycle with
        ⟨next, hFirst, hRest⟩
      rcases hLeads hFirst with ⟨hSource, rfl⟩
      rcases Relation.ReflTransGen.cases_head hRest with
        hSame | ⟨other, hNext, -⟩
      · exact hSource hSame.symm
      · exact (hLeads hNext).1 rfl
    · decide
    · decide
    · decide
    · decide
  rcases hCompile with ⟨script, hScript⟩
  have hMade :
      (assembler.assemble fanIn).2.outcome = .ok script := by
    rw [assemble_new]
    exact Compiler.compile_eq_ok_iff.mp hScript
  rcases (assemble_threads_inputs assembler fanIn).2
      script hMade with
    ⟨calls, hThreaded⟩
  have hForged :
      (forging.assemble alone).2.outcome =
        .error (.validation problem) := by
    have hGraph :
        Graph.ofDescription alone =
          .ok ⟨Graph.nodesOf alone, []⟩ := rfl
    have hOrder :
        Graph.order ⟨Graph.nodesOf alone, []⟩ = .ok [0] := by
      decide +kernel
    have hGenerate :
        (Assembly.generate .standard forging.registry
            ⟨Graph.nodesOf alone, []⟩ [0]).outcome =
          .error (.validation problem) := by
      simp only [forging, alone, sink, problem]
      rfl
    rw [assemble_new, Assembly.assemble_eq_error_iff]
    exact Or.inr ⟨rfl, Or.inr ⟨_, hGraph,
      Or.inr ⟨[0], hOrder, hGenerate⟩⟩⟩
  refine ⟨⟨script, calls, hMade, hThreaded, ?_⟩, rfl, hForged,
    (assemble_threads_inputs forging alone).1 problem rfl
      hForged⟩
  intro call hCall hId
  have hInputs := (hThreaded.isDue call hCall).isFor.inputs_eq
  rw [hId] at hInputs
  apply List.map_injective_iff.mpr (Option.some_injective _)
  rw [hInputs]
  decide

end Assembler

end PipelineScript
