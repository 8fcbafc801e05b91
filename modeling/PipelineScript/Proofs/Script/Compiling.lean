import PipelineScript.Proofs.Description.Restriction
import PipelineScript.Proofs.Script.Generators
import PipelineScript.Proofs.Script.Run

/-
  Which descriptions become scripts.

  Key definitions include:
    * `Description.nodeNames`
    * `Description.requests`

  Key theorems include:
    * `Script.IsMadeOf.agree`
    * `Assembly.exists_blocks`
    * `Compiler.compile_succeeds_iff`
-/

namespace PipelineScript

------------------------------------------------------------
-- What a Description Asks For
------------------------------------------------------------

namespace Description

/- The names that the nodes would have in a script. -/
def nodeNames (description : Description) : List String :=
  description.nodes.entries.map fun (id, node) =>
    nodeName node.kind id

/- The imports that a script with these nodes would need. -/
def requests
    (settings : Settings)
    (description : Description) : List Directive :=
  settings.imports.defaults
    ++ description.nodes.values.flatMap fun node =>
      node.kind.imports
        ++ settings.imports.forTag node.kind.tag

end Description

------------------------------------------------------------
-- Blocks and Nodes
------------------------------------------------------------

variable {settings : Settings} {description : Description}
variable {graph : Graph} {blocks : List Block}

/- An order of all places has every node in it. -/
theorem Graph.nodes_perm
    (hPerm :
      (blocks.map Block.place).Perm (List.range graph.size))
    (hNodes :
      ∀ block ∈ blocks,
        graph.nodes[block.place]? = some block.node) :
    (blocks.map Block.node).Perm graph.nodes := by
  apply (List.map_perm_map_iff
    (Option.some_injective Node)).mp
  have hBlocks :
      (blocks.map Block.place).map (graph.nodes[·]?) =
        (blocks.map Block.node).map some := by
    rw [List.map_map, List.map_map]
    exact List.map_congr_left hNodes
  rw [← hBlocks, ← Graph.map_getElem?_range]
  exact hPerm.map _

/- The names in blocks are those of the nodes described. -/
theorem Graph.names_perm
    (hGraph : Graph.ofDescription description = .ok graph)
    (hNodes : (blocks.map Block.node).Perm graph.nodes) :
    (blocks.map Block.name).Perm description.nodeNames := by
  have hNames :=
    hNodes.map fun node => nodeName node.kind node.id
  rw [List.map_map,
    (Graph.ofDescription_eq_ok_iff.mp hGraph).1,
    Graph.nodesOf, List.map_map] at hNames
  exact hNames

/- Names of their own can be given to the nodes of all blocks. -/
theorem Graph.isSound_entries
    (hGraph : Graph.ofDescription description = .ok graph)
    (hPerm :
      (blocks.map Block.place).Perm (List.range graph.size))
    (hNodes : (blocks.map Block.node).Perm graph.nodes)
    (hNodup : description.nodeNames.Nodup)
    (hReserved :
      ∀ name ∈ description.nodeNames, name ∉ reservedNames) :
    NameEntry.AreSound (blocks.map Block.entry) := by
  have hNames := Graph.names_perm hGraph hNodes
  refine ⟨?_, ?_, ?_⟩
  · have hPlaces := hPerm.nodup_iff.mpr List.nodup_range
    simpa [Function.comp_def, Block.entry] using hPlaces
  · have hOwn := hNames.nodup_iff.mpr hNodup
    simpa [Function.comp_def, Block.entry] using hOwn
  · intro entry hEntry
    rcases List.mem_map.mp hEntry with ⟨block, hBlock, rfl⟩
    exact hReserved _
      (hNames.mem_iff.mp (List.mem_map_of_mem hBlock))

/- The imports of blocks are those that nodes ask for. -/
theorem Graph.requests_perm
    (hGraph : Graph.ofDescription description = .ok graph)
    (hNodes : (blocks.map Block.node).Perm graph.nodes)
    (hMade :
      ∀ block ∈ blocks,
        block.IsMade settings .standard graph) :
    (settings.imports.defaults ++
        blocks.flatMap (Block.requests settings)).Perm
      (description.requests settings) := by
  have hRequests :
      ∀ block ∈ blocks,
        block.requests settings =
          block.node.kind.imports
            ++ settings.imports.forTag block.node.kind.tag := by
    intro block hBlock
    rw [Block.requests,
      (Registry.becomes_of_generate
        (hMade block hBlock).generated_eq).2]
    rfl
  have hAll :=
    hNodes.flatMap_right fun node =>
      node.kind.imports
        ++ settings.imports.forTag node.kind.tag
  rw [List.flatMap_map,
    (Graph.ofDescription_eq_ok_iff.mp hGraph).1,
    Graph.nodesOf, List.flatMap_map] at hAll
  apply List.Perm.append_left
  rw [List.flatMap_congr hRequests, Table.values,
    List.flatMap_map]
  exact hAll

------------------------------------------------------------
-- Scripts That Were Made
------------------------------------------------------------

section

variable {registry : Registry} {script : Script}

/- A script has a block for every node. -/
theorem Script.IsMadeOf.nodes_perm
    (hMade :
      script.IsMadeOf settings registry description graph
        blocks) :
    (blocks.map Block.node).Perm graph.nodes :=
  Graph.nodes_perm
    (Graph.perm_range_of_order hMade.graph_eq hMade.order_eq)
    fun block hBlock => (hMade.made block hBlock).node_eq

/- The blocks of a script have the names of all nodes. -/
theorem Script.IsMadeOf.names_perm
    (hMade :
      script.IsMadeOf settings registry description graph
        blocks) :
    (blocks.map Block.name).Perm description.nodeNames :=
  Graph.names_perm hMade.graph_eq hMade.nodes_perm

/- The nodes of a script have names of their own. -/
theorem Script.IsMadeOf.nodeNames_spec
    (hMade :
      script.IsMadeOf settings registry description graph
        blocks) :
    description.nodeNames.Nodup ∧
      ∀ name ∈ description.nodeNames, name ∉ reservedNames := by
  constructor
  · apply hMade.names_perm.nodup_iff.mp
    simpa [Function.comp_def, Block.entry] using
      hMade.isSound.names
  · intro name hName
    rcases List.mem_map.mp (hMade.names_perm.mem_iff.mpr hName)
      with ⟨block, hBlock, rfl⟩
    exact hMade.isSound.unreserved block.entry
      (List.mem_map_of_mem hBlock)

/- The imports of a script go together. -/
theorem Script.IsMadeOf.agree
    (hMade :
      script.IsMadeOf settings registry description graph
        blocks) :
    ImportBlock.Agree
      (settings.imports.defaults ++
        blocks.flatMap (Block.requests settings)) := by
  apply hMade.imports_isNormal.agree.of_subset
  intro kept hKept
  rw [hMade.imports_isNormal.map_normalized]
  exact (hMade.mem_imports kept).mpr hKept

end

------------------------------------------------------------
-- Scripts That Can Be Made
------------------------------------------------------------

namespace Assembly

/- Every node of a graph becomes a block. -/
theorem exists_block
    (hClosed : graph.IsClosed)
    (hLoose : settings.strictModels = false)
    {place : Nat}
    (hPlace : place < graph.size) :
    ∃ block : Block,
      block.place = place ∧
        block.IsMade settings .standard graph := by
  have hNode := List.getElem?_eq_getElem hPlace
  let draft : Block :=
    { place := place
      node := graph.nodes[place]
      inputs :=
        (graph.inputsOf place).map fun input =>
          (graph.nameAt? input).getD missingInput
      generated := ⟨[], []⟩ }
  have hGenerate :
      ∃ generated,
        (Registry.standard.generate
            (draft.request settings)).outcome =
          .ok generated :=
    Registry.exists_generate_standard hLoose
  rcases hGenerate with ⟨generated, hGenerated⟩
  refine ⟨{ draft with generated := generated }, rfl, hNode, ?_,
    hGenerated⟩
  rw [List.map_map]
  apply List.map_congr_left
  intro input hInput
  -- An input is a place of the graph, and so it has a name.
  rcases List.mem_map.mp hInput with ⟨edge, hEdge, rfl⟩
  have hLt := (hClosed edge (List.mem_filter.mp hEdge).1).1
  simp [Graph.nameAt?, List.getElem?_eq_getElem hLt]

/- The nodes in all given places become blocks. -/
theorem exists_blocks
    (hClosed : graph.IsClosed)
    (hLoose : settings.strictModels = false)
    {places : List Nat}
    (hPlaces : ∀ place ∈ places, place < graph.size) :
    ∃ blocks : List Block,
      blocks.map Block.place = places ∧
        ∀ block ∈ blocks,
          block.IsMade settings .standard graph := by
  induction places with
  | nil => exact ⟨[], rfl, by simp⟩
  | cons place places ih =>
      rw [List.forall_mem_cons] at hPlaces
      rcases exists_block hClosed hLoose hPlaces.1 with
        ⟨block, hPlace, hMade⟩
      rcases ih hPlaces.2 with ⟨blocks, hBlocks, hAll⟩
      refine ⟨block :: blocks, ?_, ?_⟩
      · rw [List.map_cons, hPlace, hBlocks]
      · rw [List.forall_mem_cons]
        exact ⟨hMade, hAll⟩

/- The blocks of an order can all be visited. -/
theorem exists_generate
    {registry : Registry}
    (hGraph : Graph.ofDescription description = .ok graph)
    (hOrder : graph.order = .ok (blocks.map Block.place))
    (hMade :
      ∀ block ∈ blocks, block.IsMade settings registry graph)
    (hSound : NameEntry.AreSound (blocks.map Block.entry))
    (hAgree :
      ImportBlock.Agree
        (settings.imports.defaults ++
          blocks.flatMap (Block.requests settings))) :
    ∃ progress,
      (generate settings registry graph
        (blocks.map Block.place)).outcome = .ok progress := by
  have hDefaults :
      ∃ defaults,
        ImportBlock.ofDirectives settings.imports.defaults =
          .ok defaults := by
    apply (ImportBlock.exists_addAll_iff
      ImportBlock.isNormal_empty).mpr
    apply hAgree.of_subset
    simp
  rcases hDefaults with ⟨defaults, hDefaults⟩
  have hNormal : defaults.IsNormal :=
    ImportBlock.isNormal_of_addAll ImportBlock.isNormal_empty
      hDefaults
  have hVisit :
      ∃ progress,
        (visitAll settings registry graph
          { body := []
            imports := defaults
            names := .empty
            unhandled := 0 }
          (blocks.map Block.place)).outcome = .ok progress := by
    refine exists_visitAll hMade NameTable.lists_empty hSound
      (NameTable.isOf_empty graph) ?_ hNormal ?_
    · apply Graph.ready_of_isOrder
        (Graph.isClosed_of_ofDescription hGraph)
      exact Graph.isOrder_of_order hGraph hOrder
    · rw [ImportBlock.agree_append_congr
        ImportBlock.isNormal_empty hDefaults]
      exact hAgree
  rcases hVisit with ⟨progress, hProgress⟩
  refine ⟨progress, ?_⟩
  rw [generate, Traced.outcome_bind_eq_ok]
  exact ⟨defaults, hDefaults, hProgress⟩

end Assembly

namespace Compiler

variable {script : Script}

/-
  What a description must be to become a script: linked, free
  of cycles, with names of its own, and with imports that go
  together.
-/
theorem conditions_of_compile
    (hCompile :
      ((ofSettings settings).compile description).outcome =
        .ok script) :
    description.IsLinked ∧ description.IsAcyclic ∧
      (description.nodeNames.Nodup ∧
        ∀ name ∈ description.nodeNames,
          name ∉ reservedNames) ∧
      ImportBlock.Agree (description.requests settings) := by
  rcases exists_isMadeOf hCompile with ⟨graph, blocks, hMade⟩
  refine ⟨?_, ?_, hMade.nodeNames_spec, ?_⟩
  · exact Graph.exists_ofDescription_iff_isLinked.mp
      ⟨graph, hMade.graph_eq⟩
  · exact (Graph.exists_order_iff_isAcyclic
      hMade.graph_eq).mp ⟨_, hMade.order_eq⟩
  · apply hMade.agree.of_subset
    intro kept hKept
    exact ((Graph.requests_perm hMade.graph_eq hMade.nodes_perm
      hMade.made).map _).mem_iff.mpr hKept

/- A script imports what the description asks for. -/
theorem mem_imports_of_compile
    (hCompile :
      ((ofSettings settings).compile description).outcome =
        .ok script)
    (kept : Directive) :
    kept ∈ script.imports.directives ↔
      kept ∈
        (description.requests settings).map
          Directive.normalized := by
  rcases exists_isMadeOf hCompile with ⟨graph, blocks, hMade⟩
  rw [hMade.mem_imports]
  exact ((Graph.requests_perm hMade.graph_eq hMade.nodes_perm
    hMade.made).map _).mem_iff

/- A description that is all this becomes a script. -/
theorem exists_compile
    (hCheck : settings.check.outcome = .ok ())
    (hLoose : settings.strictModels = false)
    (hLinked : description.IsLinked)
    (hAcyclic : description.IsAcyclic)
    (hNames : description.nodeNames.Nodup)
    (hReserved :
      ∀ name ∈ description.nodeNames, name ∉ reservedNames)
    (hAgree :
      ImportBlock.Agree (description.requests settings)) :
    ∃ script,
      ((ofSettings settings).compile description).outcome =
        .ok script := by
  rcases Graph.exists_ofDescription_iff_isLinked.mpr hLinked with
    ⟨graph, hGraph⟩
  rcases (Graph.exists_order_iff_isAcyclic hGraph).mpr
      hAcyclic with
    ⟨places, hOrder⟩
  have hPerm := Graph.perm_range_of_order hGraph hOrder
  have hPlaces : ∀ place ∈ places, place < graph.size := by
    intro place hPlace
    exact List.mem_range.mp (hPerm.mem_iff.mp hPlace)
  rcases Assembly.exists_blocks
      (Graph.isClosed_of_ofDescription hGraph) hLoose
      hPlaces with
    ⟨blocks, rfl, hMade⟩
  have hNodes : (blocks.map Block.node).Perm graph.nodes :=
    Graph.nodes_perm hPerm fun block hBlock =>
      (hMade block hBlock).node_eq
  have hSound :=
    Graph.isSound_entries hGraph hPerm hNodes hNames hReserved
  have hGenerate :
      ∃ progress,
        (Assembly.generate settings .standard graph
          (blocks.map Block.place)).outcome =
            .ok progress := by
    apply Assembly.exists_generate hGraph hOrder hMade hSound
    apply hAgree.of_subset
    intro kept hKept
    exact ((Graph.requests_perm hGraph hNodes
      hMade).map _).mem_iff.mp hKept
  rcases hGenerate with ⟨progress, hProgress⟩
  exact ⟨_, compile_eq_ok_iff.mpr
    (Assembly.assemble_eq_ok_iff.mpr
      ⟨hCheck, graph, _, progress, hGraph, hOrder, hProgress,
        rfl⟩)⟩

/-
  The same, where every connection joins two nodes and leads
  from a lower to a higher rank.
-/
theorem exists_compile_of_rank
    (rank : NodeId → Nat)
    (hCheck : settings.check.outcome = .ok ())
    (hLoose : settings.strictModels = false)
    (hRank :
      ∀ connection ∈ description.connections.values,
        (connection.source ∈ description.nodes.keys ∧
            connection.target ∈ description.nodes.keys) ∧
          rank connection.source < rank connection.target)
    (hNames :
      description.nodeNames.Nodup ∧
        ∀ name ∈ description.nodeNames, name ∉ reservedNames)
    (hAgree :
      ImportBlock.Agree (description.requests settings)) :
    ∃ script,
      ((ofSettings settings).compile description).outcome =
        .ok script :=
  exists_compile hCheck hLoose
    (fun connection hConnection =>
      (hRank connection hConnection).1)
    (Description.isAcyclic_of_rank rank
      fun connection hConnection =>
        (hRank connection hConnection).2)
    hNames.1 hNames.2 hAgree

/- No nodes become a script if the default imports go together. -/
theorem exists_compile_empty
    (hCheck : settings.check.outcome = .ok ())
    (hLoose : settings.strictModels = false)
    (hAgree : ImportBlock.Agree settings.imports.defaults) :
    ∃ script,
      ((ofSettings settings).compile .empty).outcome =
        .ok script := by
  have hRequests :
      Description.empty.requests settings =
        settings.imports.defaults :=
    List.append_nil _
  apply exists_compile_of_rank fun _ => 0
  · exact hCheck
  · exact hLoose
  · exact List.forall_mem_nil _
  · exact ⟨List.nodup_nil, List.forall_mem_nil _⟩
  · rw [hRequests]
    exact hAgree

/-
  Where names are not checked strictly, a description becomes
  a script exactly if it is linked, has no cycle, gives every
  node a name of its own, and asks for imports that go
  together. What is not linked is a problem of its structure,
  and what is linked and has a cycle is told as such. Nothing
  else in a description can make it fail, if it has no more
  nodes than there are places (`Graph.placeLimit`).
-/
theorem compile_succeeds_iff
    (settings : Settings)
    (description : Description)
    (hCheck : settings.check.outcome = .ok ())
    (hLoose : settings.strictModels = false) :
    ((∃ script,
        ((ofSettings settings).compile description).outcome =
          .ok script) ↔
      description.IsLinked ∧ description.IsAcyclic ∧
        (description.nodeNames.Nodup ∧
          ∀ name ∈ description.nodeNames,
            name ∉ reservedNames) ∧
        ImportBlock.Agree (description.requests settings)) ∧
      (¬ description.IsLinked →
        ∃ problem,
          ((ofSettings settings).compile description).outcome =
            .error (.validation problem)) ∧
      (description.IsLinked → ¬ description.IsAcyclic →
        ∃ waiting,
          ((ofSettings settings).compile description).outcome =
            .error (.cyclicGraph waiting)) := by
  refine ⟨⟨?_, ?_⟩, ?_, ?_⟩
  · rintro ⟨script, hCompile⟩
    exact conditions_of_compile hCompile
  · rintro ⟨hLinked, hAcyclic, ⟨hNames, hReserved⟩, hAgree⟩
    exact exists_compile hCheck hLoose hLinked hAcyclic hNames
      hReserved hAgree
  · intro hUnlinked
    cases hGraph : Graph.ofDescription description with
    | ok graph =>
        exact absurd
          (Graph.exists_ofDescription_iff_isLinked.mp
            ⟨graph, hGraph⟩) hUnlinked
    | error error =>
        rcases Graph.ofDescription_eq_error hGraph with
          ⟨problem, rfl⟩
        exact ⟨problem, compile_eq_error_iff.mpr
          (Assembly.assemble_eq_error_of_ofDescription hCheck
            hGraph)⟩
  · intro hLinked hCyclic
    rcases Graph.exists_ofDescription_iff_isLinked.mpr
        hLinked with
      ⟨graph, hGraph⟩
    cases hOrder : graph.order with
    | ok places =>
        exact absurd
          ((Graph.exists_order_iff_isAcyclic hGraph).mp
            ⟨places, hOrder⟩) hCyclic
    | error error =>
        rcases Graph.order_eq_error_iff.mp hOrder with
          ⟨waiting, -, rfl⟩
        exact ⟨_, compile_eq_error_iff.mpr
          (Assembly.assemble_eq_error_of_order hCheck hGraph
            hOrder)⟩

/- A loader alone, a way from nowhere, and a loop. -/
theorem compile_of_small_descriptions :
    let alone :=
      Description.empty.putNode ⟨"a"⟩ "DataLoader" .empty
    let dangling := alone.connect ⟨"b"⟩ ⟨"a"⟩
    let looped := alone.connect ⟨"a"⟩ ⟨"a"⟩
    let compile := (ofSettings .standard).compile
    Settings.standard.check.outcome = .ok () ∧
      Settings.standard.strictModels = false ∧
      (∃ script, (compile alone).outcome = .ok script) ∧
      (∃ problem,
        (compile dangling).outcome =
          .error (.validation problem)) ∧
      ∃ waiting,
        (compile looped).outcome =
          .error (.cyclicGraph waiting) := by
  intro alone dangling looped compile
  have hCheck : Settings.standard.check.outcome = .ok () := rfl
  have hNone : alone.connections.values = [] := rfl
  have hLoop :
      looped.connections.values = [.between ⟨"a"⟩ ⟨"a"⟩] := rfl
  refine ⟨hCheck, rfl, ?_, ?_, ?_⟩
  · apply (compile_succeeds_iff .standard alone hCheck rfl).1.mpr
    refine ⟨?_, ?_, ⟨?_, ?_⟩, ⟨?_, ?_⟩⟩
    · simp [Description.IsLinked, hNone]
    · intro id hCycle
      rcases Relation.TransGen.head'_iff.mp hCycle with
        ⟨next, ⟨connection, hConnection, -⟩, -⟩
      rw [hNone] at hConnection
      simp at hConnection
    · decide
    · decide
    · decide
    · decide
  · apply (compile_succeeds_iff .standard dangling hCheck
      rfl).2.1
    intro hLinked
    have hEnds := hLinked (.between ⟨"b"⟩ ⟨"a"⟩) (by decide)
    exact absurd hEnds.1 (by decide)
  · apply (compile_succeeds_iff .standard looped hCheck
      rfl).2.2
    · simp [Description.IsLinked, hLoop]
      decide
    · intro hAcyclic
      apply hAcyclic ⟨"a"⟩
      apply Relation.TransGen.single
      exact ⟨.between ⟨"a"⟩ ⟨"a"⟩, by simp [hLoop], rfl, rfl⟩

end Compiler

end PipelineScript
