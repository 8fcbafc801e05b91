import PipelineScript.Proofs.Graph.Order

/-
  When a description has a graph, and when the graph has an
  order, in terms of the connections alone.

  Key definitions include:
    * `Description.IsLinked`
    * `Description.IsAcyclic`
    * `Description.sourcesOf`
    * `Description.firstSource?`

  Key theorems include:
    * `Graph.exists_ofDescription_iff_isLinked`
    * `Graph.exists_order_iff_isAcyclic`
    * `Graph.map_getElem?_inputsOf`
    * `Graph.exists_firstSource?`
-/

namespace PipelineScript

namespace Description

/- Both ends of every connection are nodes. -/
def IsLinked (description : Description) : Prop :=
  ∀ connection ∈ description.connections.values,
    connection.source ∈ description.nodes.keys ∧
      connection.target ∈ description.nodes.keys

/- Some connection leads from the one key to the other. -/
def Leads
    (description : Description)
    (source target : NodeId) : Prop :=
  ∃ connection ∈ description.connections.values,
    connection.source = source ∧ connection.target = target

/- No way along the connections comes back to its start. -/
def IsAcyclic (description : Description) : Prop :=
  ∀ id, ¬ Relation.TransGen description.Leads id id

/- Where the connections to a node come from, one by one. -/
def sourcesOf
    (description : Description)
    (id : NodeId) : List NodeId :=
  (description.connections.values.filter (·.target == id)).map
    Connection.source

/- Where the first connection to a node comes from. -/
def firstSource?
    (description : Description)
    (id : NodeId) : Option NodeId :=
  (description.connections.values.find? (·.target == id)).map
    Connection.source

/- The first of all sources is where the first one comes from. -/
theorem head?_sourcesOf
    (description : Description)
    (id : NodeId) :
    (description.sourcesOf id).head? =
      description.firstSource? id := by
  rw [sourcesOf, firstSource?, List.head?_map,
    List.head?_filter]

end Description

namespace Graph

variable {description : Description} {graph : Graph}

/- What stands in all places, one after the other. -/
theorem map_getElem?_range
    {α : Type}
    (items : List α) :
    (List.range items.length).map (items[·]?) =
      items.map some := by
  apply List.ext_getElem
  · simp
  · intro place hPlace hOther
    have hLt : place < items.length := by simpa using hOther
    simp [List.getElem?_eq_getElem hLt]

/- A graph is made if all connections are linked. -/
theorem exists_ofDescription_iff_isLinked :
    (∃ graph, ofDescription description = .ok graph) ↔
      description.IsLinked :=
  exists_ofDescription_iff

/- An edge stands for a connection between its keys. -/
theorem leads_of_leads_adjacency
    (hBuilt : ofDescription description = .ok graph)
    {source target : Nat}
    (hLeads : graph.adjacency.Leads source target) :
    ∃ first last,
      description.nodes.keys[source]? = some first ∧
        description.nodes.keys[target]? = some last ∧
        description.Leads first last := by
  have hClosed := isClosed_of_ofDescription hBuilt
  rcases (leads_adjacency_iff hClosed).mp hLeads with
    ⟨edge, hEdge, rfl, rfl⟩
  rcases Pairing.exists_left
      (ofDescription_eq_ok_iff.mp hBuilt).2 hEdge with
    ⟨entry, hEntry, hResolves⟩
  exact ⟨entry.2.source, entry.2.target, hResolves.source_eq,
    hResolves.target_eq, entry.2,
    List.mem_map_of_mem hEntry, rfl, rfl⟩

/- A connection becomes an edge between its places. -/
theorem leads_adjacency_of_leads
    (hBuilt : ofDescription description = .ok graph)
    {first last : NodeId}
    (hLeads : description.Leads first last) :
    graph.adjacency.Leads
      (description.nodes.keys.idxOf first)
      (description.nodes.keys.idxOf last) := by
  have hClosed := isClosed_of_ofDescription hBuilt
  have hKeys : description.nodes.keys.Nodup :=
    description.nodes.distinct
  -- A key is found in the place it was resolved to.
  have hIndex :
      ∀ {place : Nat} {id : NodeId},
        description.nodes.keys[place]? = some id →
          place = description.nodes.keys.idxOf id := by
    intro place id hPlace
    rcases List.getElem?_eq_some_iff.mp hPlace with ⟨hLt, rfl⟩
    exact (hKeys.idxOf_getElem place hLt).symm
  rcases hLeads with ⟨connection, hConnection, rfl, rfl⟩
  rcases List.mem_map.mp hConnection with ⟨entry, hEntry, rfl⟩
  rcases Pairing.exists_right
      (ofDescription_eq_ok_iff.mp hBuilt).2 hEntry with
    ⟨edge, hEdge, hResolves⟩
  exact (leads_adjacency_iff hClosed).mpr
    ⟨edge, hEdge, hIndex hResolves.source_eq,
      hIndex hResolves.target_eq⟩

/- The inputs of a place are the sources of its key, in order. -/
theorem map_getElem?_inputsOf
    (hBuilt : ofDescription description = .ok graph)
    {place : Nat}
    {id : NodeId}
    (hPlace : description.nodes.keys[place]? = some id) :
    (graph.inputsOf place).map (description.nodes.keys[·]?) =
      (description.sourcesOf id).map some := by
  have hKeys : description.nodes.keys.Nodup :=
    description.nodes.distinct
  -- A connection leads to the key if its edge leads to the place.
  have hSame :
      ∀ (entry : ConnectionId × Connection) (edge : Edge),
        Resolves description.nodes.keys entry edge →
          (entry.2.target == id) = (edge.target == place) := by
    intro entry edge hResolves
    rcases List.getElem?_eq_some_iff.mp hResolves.target_eq with
      ⟨hTarget, hTargetId⟩
    rcases List.getElem?_eq_some_iff.mp hPlace with
      ⟨hLt, hId⟩
    rw [Bool.eq_iff_iff, beq_iff_eq, beq_iff_eq, ← hTargetId,
      ← hId, hKeys.getElem_inj_iff]
  have hAll :=
    Pairing.map_filter_eq
      (ofDescription_eq_ok_iff.mp hBuilt).2 hSame
      (f := fun entry => some entry.2.source)
      (g := fun edge => description.nodes.keys[edge.source]?)
      fun _ _ hResolves => hResolves.source_eq.symm
  rw [inputsOf, Description.sourcesOf, Table.values,
    List.filter_map, List.map_map, List.map_map, List.map_map]
  exact hAll.symm

/- The first input of a place is that of its first connection. -/
theorem exists_firstSource?
    (hBuilt : ofDescription description = .ok graph)
    {place input : Nat}
    {id : NodeId}
    (hPlace : description.nodes.keys[place]? = some id)
    (hInput : (graph.inputsOf place).head? = some input) :
    ∃ source,
      description.firstSource? id = some source ∧
        description.nodes.keys[input]? = some source := by
  have hHead :=
    congrArg List.head? (map_getElem?_inputsOf hBuilt hPlace)
  rw [List.head?_map, List.head?_map, hInput,
    Description.head?_sourcesOf, Option.map_some] at hHead
  rcases Option.map_eq_some_iff.mp hHead.symm with
    ⟨source, hFirst, hSource⟩
  exact ⟨source, hFirst, hSource.symm⟩

/- Cycles of a graph are those of its description. -/
theorem isAcyclic_adjacency_iff
    (hBuilt : ofDescription description = .ok graph) :
    graph.adjacency.IsAcyclic ↔ description.IsAcyclic := by
  constructor
  · intro hAcyclic id hCycle
    apply hAcyclic (description.nodes.keys.idxOf id)
    refine Relation.TransGen.lift
      description.nodes.keys.idxOf ?_ _ _ hCycle
    intro first last hLeads
    exact leads_adjacency_of_leads hBuilt hLeads
  · intro hAcyclic place hCycle
    apply hAcyclic (description.nodes.keys.getD place ⟨""⟩)
    refine Relation.TransGen.lift (p := description.Leads)
      (fun place => description.nodes.keys.getD place ⟨""⟩) ?_
      _ _ hCycle
    intro source target hLeads
    rcases leads_of_leads_adjacency hBuilt hLeads with
      ⟨first, last, hFirst, hLast, hConnected⟩
    simpa [Function.onFun, hFirst, hLast] using hConnected

/- A graph has an order if the description has no cycle. -/
theorem exists_order_iff_isAcyclic
    (hBuilt : ofDescription description = .ok graph) :
    (∃ places, graph.order = .ok places) ↔
      description.IsAcyclic := by
  have hCounts :=
    counts_adjacency (isClosed_of_ofDescription hBuilt)
  rw [← isAcyclic_adjacency_iff hBuilt]
  simp only [order_eq_ok_iff]
  rw [Adjacency.exists_order_iff hCounts]
  simp

end Graph

end PipelineScript
