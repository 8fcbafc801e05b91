import PipelineScript.Proofs.Script.Threading

/-
  Which descriptions become scripts, whatever the generators
  are: those for which every generator does what it is called
  for, and for which nothing else stands in the way.

  What a generator is called with depends on its own node, on
  the connections into that node and on the names of the nodes
  they come from, and on nothing else.

  Key definitions include:
    * `Call.requests`
    * `Description.IsServed`
    * `Description.IsWellNamed`

  Key theorems include:
    * `Call.IsDue.eq_of_id_eq`
    * `Call.eq_of_ids_eq`
    * `Compiler.exists_calls`
    * `Compiler.exists_compile_iff_isServed`
-/

namespace PipelineScript

variable {settings : Settings} {registry : Registry}
variable {description : Description} {graph : Graph}

------------------------------------------------------------
-- Calls That Are Due
------------------------------------------------------------

/- What is told of a node is the same in every request. -/
theorem Request.IsFor.eq_of_id_eq
    {first second : Request}
    (hFirst : first.IsFor settings description)
    (hSecond : second.IsFor settings description)
    (hId : first.id = second.id) :
    first = second := by
  have hNode := hFirst.node_eq
  rw [hId, hSecond.node_eq, Option.some.injEq,
    NodeRecord.mk.injEq] at hNode
  have hInputs : first.inputs = second.inputs := by
    apply List.map_injective_iff.mpr
      (Option.some_injective String)
    rw [hFirst.inputs_eq, hSecond.inputs_eq, hId]
  have hName : first.name = second.name := by
    rw [hFirst.name_eq, hSecond.name_eq, hId, hNode.1]
  have hLayout : first.layout = second.layout := by
    rw [hFirst.layout_eq, hSecond.layout_eq]
  cases first
  cases second
  simp_all

/- For every node only one call is due. -/
theorem Call.IsDue.eq_of_id_eq
    {first second : Call}
    (hFirst : first.IsDue settings registry description)
    (hSecond : second.IsDue settings registry description)
    (hId : first.request.id = second.request.id) :
    first = second := by
  have hRequest :=
    hFirst.isFor.eq_of_id_eq hSecond.isFor hId
  have hGenerated := hFirst.generated_eq
  rw [hRequest, hSecond.generated_eq, Except.ok.injEq]
    at hGenerated
  cases first
  cases second
  simp_all

/- Calls that are due are told by the keys of their nodes. -/
theorem Call.eq_of_ids_eq
    {first second : List Call}
    (hFirst :
      ∀ call ∈ first, call.IsDue settings registry description)
    (hSecond :
      ∀ call ∈ second, call.IsDue settings registry description)
    (hIds :
      (first.map fun call => call.request.id) =
        second.map fun call => call.request.id) :
    first = second := by
  induction first generalizing second with
  | nil =>
      rw [List.map_nil, eq_comm, List.map_eq_nil_iff] at hIds
      exact hIds.symm
  | cons call first ih =>
      cases second with
      | nil => simp at hIds
      | cons other second =>
          rw [List.map_cons, List.map_cons,
            List.cons.injEq] at hIds
          rw [List.forall_mem_cons] at hFirst hSecond
          rw [hFirst.1.eq_of_id_eq hSecond.1 hIds.1,
            ih hFirst.2 hSecond.2 hIds.2]

/- The imports of a call and those that its tag requires. -/
def Call.requests
    (settings : Settings)
    (call : Call) : List Directive :=
  call.generated.imports
    ++ settings.imports.forTag call.request.kind.tag

------------------------------------------------------------
-- Descriptions That Are Served
------------------------------------------------------------

namespace Description

/- The nodes have names of their own, none of them reserved. -/
def IsWellNamed (description : Description) : Prop :=
  description.nodeNames.Nodup ∧
    ∀ name ∈ description.nodeNames, name ∉ reservedNames

/-
  There is a call for every node, each of them as it is due,
  and what they import goes together.
-/
structure IsServed
    (settings : Settings)
    (registry : Registry)
    (description : Description)
    (calls : List Call) : Prop where
  perm :
    (calls.map fun call => call.request.id).Perm
      description.nodes.keys
  isDue :
    ∀ call ∈ calls, call.IsDue settings registry description
  agree :
    ImportBlock.Agree
      (settings.imports.defaults
        ++ calls.flatMap (Call.requests settings))

end Description

------------------------------------------------------------
-- From Calls to Blocks
------------------------------------------------------------

/- What a generator is told of the node in a place. -/
theorem Request.IsFor.inputs_eq_of_place
    {request : Request}
    (hFor : request.IsFor settings description)
    (hGraph : Graph.ofDescription description = .ok graph)
    {place : Nat}
    {node : Node}
    (hNode : graph.nodes[place]? = some node)
    (hId : request.id = node.id) :
    (graph.inputsOf place).map graph.nameAt? =
      request.inputs.map some := by
  rw [Graph.map_nameAt?_inputsOf hGraph hNode, ← hId,
    hFor.inputs_eq]

/- A call that is due makes the block of its node. -/
theorem Call.IsDue.exists_block
    {call : Call}
    (hDue : call.IsDue settings registry description)
    (hGraph : Graph.ofDescription description = .ok graph)
    {place : Nat}
    {node : Node}
    (hNode : graph.nodes[place]? = some node)
    (hId : call.request.id = node.id) :
    ∃ block : Block,
      block.place = place ∧
        block.IsMade settings registry graph ∧
        block.call settings = call := by
  have hInputs :=
    hDue.isFor.inputs_eq_of_place hGraph hNode hId
  let block : Block :=
    { place := place
      node := node
      inputs := call.request.inputs
      generated := call.generated }
  have hFor : (block.request settings).IsFor settings description :=
    Block.isFor_request hGraph hNode hInputs
  have hRequest : block.request settings = call.request :=
    hFor.eq_of_id_eq hDue.isFor hId.symm
  refine ⟨block, rfl, ⟨hNode, hInputs, ?_⟩, ?_⟩
  · rw [hRequest, Registry.outcome_generate]
    exact hDue.generated_eq
  · rw [Block.call, hRequest]

/- Where every node is served, every place has its block. -/
theorem Description.IsServed.exists_blocks
    {calls : List Call}
    (hServed : description.IsServed settings registry calls)
    (hGraph : Graph.ofDescription description = .ok graph)
    {places : List Nat}
    (hPlaces : ∀ place ∈ places, place < graph.size) :
    ∃ blocks : List Block,
      blocks.map Block.place = places ∧
        ∀ block ∈ blocks,
          block.IsMade settings registry graph ∧
            block.call settings ∈ calls := by
  induction places with
  | nil => exact ⟨[], rfl, by simp⟩
  | cons place places ih =>
      rw [List.forall_mem_cons] at hPlaces
      rcases ih hPlaces.2 with ⟨blocks, hBlocks, hAll⟩
      have hPlace : place < graph.nodes.length := hPlaces.1
      have hNode :
          graph.nodes[place]? = some graph.nodes[place] :=
        List.getElem?_eq_getElem hPlace
      have hKey :=
        (Graph.getElem?_nodes_of_ofDescription hGraph hNode).1
      have hMem := List.mem_of_getElem? hKey
      rw [← hServed.perm.mem_iff] at hMem
      rcases List.mem_map.mp hMem with ⟨call, hCall, hId⟩
      rcases (hServed.isDue call hCall).exists_block hGraph
          hNode hId with
        ⟨block, hPlace, hMade, hSame⟩
      refine ⟨block :: blocks, ?_, ?_⟩
      · rw [List.map_cons, hPlace, hBlocks]
      · rw [List.forall_mem_cons]
        exact ⟨⟨hMade, hSame ▸ hCall⟩, hAll⟩

namespace Compiler

variable {compiler : Compiler} {script : Script}

------------------------------------------------------------
-- Scripts and Their Calls
------------------------------------------------------------

/-
  A script is made by the calls that are due, and it imports
  what they ask for, besides the default imports.
-/
theorem exists_calls
    (hCompile :
      (compiler.compile description).outcome = .ok script) :
    ∃ calls,
      script.IsThreaded compiler.settings compiler.registry
          description calls
          (Assembly.assemble compiler.settings
            compiler.registry description).events ∧
        description.IsServed compiler.settings
          compiler.registry calls ∧
        script.imports.IsNormal ∧
        ∀ kept,
          kept ∈ script.imports.directives ↔
            kept ∈
              (compiler.settings.imports.defaults
                ++ calls.flatMap
                  (Call.requests compiler.settings)).map
                Directive.normalized := by
  rcases exists_isMadeOf hCompile with ⟨graph, blocks, hMade⟩
  have hThreaded :=
    hMade.isThreaded
      (Assembly.events_assemble (compile_eq_ok_iff.mp hCompile)
        hMade)
  have hRequests :
      (blocks.map (Block.call compiler.settings)).flatMap
          (Call.requests compiler.settings) =
        blocks.flatMap (Block.requests compiler.settings) := by
    rw [List.flatMap_map]
    rfl
  refine ⟨blocks.map (Block.call compiler.settings), hThreaded,
    ⟨hThreaded.perm, hThreaded.isDue, ?_⟩,
    hMade.imports_isNormal, ?_⟩
  · rw [hRequests]
    exact hMade.agree
  · rw [hRequests]
    exact hMade.mem_imports

/- The nodes of a script have names of their own. -/
theorem isWellNamed_of_compile
    (hCompile :
      (compiler.compile description).outcome = .ok script) :
    description.IsWellNamed := by
  rcases exists_isMadeOf hCompile with ⟨graph, blocks, hMade⟩
  exact hMade.nodeNames_spec

/- A description that is served becomes a script. -/
theorem exists_compile_of_isServed
    {calls : List Call}
    (hCheck : compiler.settings.check.outcome = .ok ())
    (hLinked : description.IsLinked)
    (hAcyclic : description.IsAcyclic)
    (hNamed : description.IsWellNamed)
    (hServed :
      description.IsServed compiler.settings compiler.registry
        calls) :
    ∃ script,
      (compiler.compile description).outcome = .ok script := by
  rcases Graph.exists_ofDescription_iff_isLinked.mpr hLinked with
    ⟨graph, hGraph⟩
  rcases (Graph.exists_order_iff_isAcyclic hGraph).mpr
      hAcyclic with
    ⟨places, hOrder⟩
  have hPerm := Graph.perm_range_of_order hGraph hOrder
  have hPlaces : ∀ place ∈ places, place < graph.size := by
    intro place hPlace
    exact List.mem_range.mp (hPerm.mem_iff.mp hPlace)
  rcases hServed.exists_blocks hGraph hPlaces with
    ⟨blocks, rfl, hBlocks⟩
  have hMade :
      ∀ block ∈ blocks,
        block.IsMade compiler.settings compiler.registry
          graph :=
    fun block hBlock => (hBlocks block hBlock).1
  have hNodes : (blocks.map Block.node).Perm graph.nodes :=
    Graph.nodes_perm hPerm fun block hBlock =>
      (hMade block hBlock).node_eq
  have hSound :=
    Graph.isSound_entries hGraph hPerm hNodes hNamed.1 hNamed.2
  have hAgree :
      ImportBlock.Agree
        (compiler.settings.imports.defaults
          ++ blocks.flatMap
            (Block.requests compiler.settings)) := by
    apply hServed.agree.of_subset
    apply List.map_subset
    intro request hRequest
    rw [List.mem_append] at hRequest ⊢
    rcases hRequest with hDefault | hRequest
    · exact Or.inl hDefault
    · rcases List.mem_flatMap.mp hRequest with
        ⟨block, hBlock, hOwn⟩
      exact Or.inr (List.mem_flatMap.mpr
        ⟨_, (hBlocks block hBlock).2, hOwn⟩)
  rcases Assembly.exists_generate hGraph hOrder hMade hSound
      hAgree with
    ⟨progress, hProgress⟩
  exact ⟨_, compile_eq_ok_iff.mpr
    (Assembly.assemble_eq_ok_iff.mpr
      ⟨hCheck, graph, _, progress, hGraph, hOrder, hProgress,
        rfl⟩)⟩

/-
  A description becomes a script exactly if it can be ordered,
  its nodes have names of their own, and all of its nodes are
  served.
-/
theorem exists_compile_iff_isServed :
    (∃ script,
      (compiler.compile description).outcome = .ok script) ↔
      compiler.settings.check.outcome = .ok () ∧
        description.IsLinked ∧ description.IsAcyclic ∧
        description.IsWellNamed ∧
        ∃ calls,
          description.IsServed compiler.settings
            compiler.registry calls := by
  constructor
  · rintro ⟨script, hCompile⟩
    rcases exists_isMadeOf hCompile with
      ⟨graph, blocks, hMade⟩
    rcases exists_calls hCompile with
      ⟨calls, -, hServed, -, -⟩
    exact ⟨check_of_compile hCompile,
      Graph.exists_ofDescription_iff_isLinked.mp
        ⟨graph, hMade.graph_eq⟩,
      (Graph.exists_order_iff_isAcyclic hMade.graph_eq).mp
        ⟨_, hMade.order_eq⟩,
      isWellNamed_of_compile hCompile, calls, hServed⟩
  · rintro ⟨hCheck, hLinked, hAcyclic, hNamed, calls, hServed⟩
    exact exists_compile_of_isServed hCheck hLinked hAcyclic
      hNamed hServed

end Compiler

end PipelineScript
