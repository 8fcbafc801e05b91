import PipelineScript.Proofs.Graph.Described

/-
  Which nodes wait for ever, in terms of the connections
  alone: those on cycles, and those that cycles lead to.

  Where the order of a graph cannot be given, these are the
  nodes that are told of, each of them once.

  Key definitions include:
    * `Description.WaitsForEver`

  Key theorems include:
    * `Description.WaitsForEver.mem_keys`
    * `Graph.waitsForEver_adjacency_iff`
    * `Graph.exists_order_eq_cyclicGraph`
-/

namespace PipelineScript

namespace Description

variable {description : Description}

/- A node on a cycle, or one that a cycle leads to. -/
def WaitsForEver
    (description : Description)
    (id : NodeId) : Prop :=
  ∃ root,
    Relation.TransGen description.Leads root root ∧
      Relation.ReflTransGen description.Leads root id

/- A connection leads to a node. -/
theorem mem_keys_of_leads
    (hLinked : description.IsLinked)
    {source target : NodeId}
    (hLeads : description.Leads source target) :
    target ∈ description.nodes.keys := by
  rcases hLeads with ⟨connection, hConnection, -, rfl⟩
  exact (hLinked connection hConnection).2

/- What waits for ever is a node. -/
theorem WaitsForEver.mem_keys
    (hLinked : description.IsLinked)
    {id : NodeId}
    (hWaits : description.WaitsForEver id) :
    id ∈ description.nodes.keys := by
  rcases hWaits with ⟨root, hCycle, hReaches⟩
  rcases Relation.TransGen.tail'_iff.mp hCycle with
    ⟨before, -, hRoot⟩
  cases hReaches with
  | refl => exact mem_keys_of_leads hLinked hRoot
  | tail _ hLast => exact mem_keys_of_leads hLinked hLast

end Description

namespace Graph

variable {description : Description} {graph : Graph}

/- An edge leads from the key of a place to that of another. -/
theorem leads_getD_keys
    (hBuilt : ofDescription description = .ok graph)
    {source target : Nat}
    (hLeads : graph.adjacency.Leads source target) :
    description.Leads
      (description.nodes.keys.getD source ⟨""⟩)
      (description.nodes.keys.getD target ⟨""⟩) := by
  rcases leads_of_leads_adjacency hBuilt hLeads with
    ⟨first, last, hFirst, hLast, hConnected⟩
  simpa [hFirst, hLast] using hConnected

/- A place waits for ever if the key in it does. -/
theorem waitsForEver_adjacency_iff
    (hBuilt : ofDescription description = .ok graph)
    {place : Nat}
    {id : NodeId}
    (hPlace : description.nodes.keys[place]? = some id) :
    graph.adjacency.WaitsForEver (fun _ => 0) place ↔
      description.WaitsForEver id := by
  have hKeys : description.nodes.keys.Nodup :=
    description.nodes.distinct
  rcases List.getElem?_eq_some_iff.mp hPlace with ⟨hLt, hId⟩
  constructor
  · rintro ⟨root, hCycle | ⟨-, hExtra⟩, hReaches⟩
    · have hKey :
          description.nodes.keys.getD place ⟨""⟩ = id := by
        simp [hPlace]
      refine ⟨description.nodes.keys.getD root ⟨""⟩, ?_, ?_⟩
      · refine Relation.TransGen.lift
          (fun place => description.nodes.keys.getD place ⟨""⟩)
          ?_ _ _ hCycle
        intro source target hLeads
        exact leads_getD_keys hBuilt hLeads
      · rw [← hKey]
        refine Relation.ReflTransGen.lift
          (fun place => description.nodes.keys.getD place ⟨""⟩)
          ?_ _ _ hReaches
        intro source target hLeads
        exact leads_getD_keys hBuilt hLeads
    · exact absurd hExtra (Nat.lt_irrefl 0)
  · rintro ⟨root, hCycle, hReaches⟩
    have hIndex : description.nodes.keys.idxOf id = place := by
      rw [← hId, hKeys.idxOf_getElem]
    refine ⟨description.nodes.keys.idxOf root, Or.inl ?_, ?_⟩
    · refine Relation.TransGen.lift
        description.nodes.keys.idxOf ?_ _ _ hCycle
      intro first last hLeads
      exact leads_adjacency_of_leads hBuilt hLeads
    · rw [← hIndex]
      refine Relation.ReflTransGen.lift
        description.nodes.keys.idxOf ?_ _ _ hReaches
      intro first last hLeads
      exact leads_adjacency_of_leads hBuilt hLeads

/- The keys in places are those that stand there. -/
theorem idsAt_eq_filterMap_keys
    (hBuilt : ofDescription description = .ok graph)
    (places : List Nat) :
    graph.idsAt places =
      places.filterMap (description.nodes.keys[·]?) := by
  unfold idsAt
  apply List.filterMap_congr
  intro place _
  rw [← map_id_nodesOf, List.getElem?_map,
    (ofDescription_eq_ok_iff.mp hBuilt).1]

/- Different places have different keys. -/
theorem nodup_idsAt
    (hBuilt : ofDescription description = .ok graph)
    {places : List Nat}
    (hPlaces : places.Nodup) :
    (graph.idsAt places).Nodup := by
  have hKeys : description.nodes.keys.Nodup :=
    description.nodes.distinct
  rw [idsAt_eq_filterMap_keys hBuilt]
  refine hPlaces.filterMap ?_
  intro first second id hFirst hSecond
  rcases List.getElem?_eq_some_iff.mp hFirst with ⟨_, hId⟩
  rcases List.getElem?_eq_some_iff.mp hSecond with ⟨_, hId'⟩
  exact hKeys.getElem_inj_iff.mp (hId.trans hId'.symm)

/- The keys in all places are those of all nodes. -/
theorem perm_idsAt
    (hBuilt : ofDescription description = .ok graph)
    {places : List Nat}
    (hPerm : places.Perm (List.range graph.size)) :
    (graph.idsAt places).Perm description.nodes.keys := by
  have hAll :
      (List.range graph.size).filterMap
          (description.nodes.keys[·]?) =
        description.nodes.keys := by
    have hSome := map_getElem?_range description.nodes.keys
    have hKeys := congrArg (List.filterMap id) hSome
    simpa [size_eq hBuilt, Function.comp_def] using hKeys
  have hIds := hPerm.filterMap (description.nodes.keys[·]?)
  rw [hAll] at hIds
  rw [idsAt_eq_filterMap_keys hBuilt]
  exact hIds

/-
  A graph with a cycle has no order. The nodes that wait for
  ever are told, each of them once.
-/
theorem exists_order_eq_cyclicGraph
    (hBuilt : ofDescription description = .ok graph)
    (hCyclic : ¬ description.IsAcyclic) :
    ∃ waiting : List NodeId,
      graph.order =
          .error (.cyclicGraph (waiting.map NodeId.text)) ∧
        waiting.Nodup ∧
        ∀ id, id ∈ waiting ↔ description.WaitsForEver id := by
  have hCounts :=
    counts_adjacency (isClosed_of_ofDescription hBuilt)
  have hLinked :=
    exists_ofDescription_iff_isLinked.mp ⟨graph, hBuilt⟩
  cases hOrder : graph.order with
  | ok places =>
      exact absurd
        ((exists_order_iff_isAcyclic hBuilt).mp
          ⟨places, hOrder⟩) hCyclic
  | error error =>
      rcases order_eq_error_iff.mp hOrder with
        ⟨places, hWaiting, rfl⟩
      rcases Adjacency.order_eq_error hCounts hWaiting with
        ⟨hSorted, hMem⟩
      have hPlaces : places.Nodup :=
        hSorted.imp fun hLt => Nat.ne_of_lt hLt
      refine ⟨graph.idsAt places, rfl,
        nodup_idsAt hBuilt hPlaces, ?_⟩
      intro id
      rw [idsAt_eq_filterMap_keys hBuilt, List.mem_filterMap]
      constructor
      · rintro ⟨place, hPlace, hKey⟩
        exact (waitsForEver_adjacency_iff hBuilt hKey).mp
          ((hMem place).mp hPlace)
      · intro hWaits
        have hKey :=
          List.getElem?_idxOf (hWaits.mem_keys hLinked)
        exact ⟨_, (hMem _).mpr
          ((waitsForEver_adjacency_iff hBuilt hKey).mpr hWaits),
          hKey⟩

end Graph

end PipelineScript
