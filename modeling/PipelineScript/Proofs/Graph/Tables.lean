import PipelineScript.Proofs.Graph.Restriction

/-
  What the tables of a graph tell of its description, and of
  one another.

  The targets of every place, its inputs and its degree are
  each gathered from the same edges, one edge after the other.
  So they count every edge alike, also where it leads back to
  its own place or is there twice, and keep the order of the
  connections. Where an end of a connection is no node there is
  no graph, and the first such end is told.

  Key definitions include:
    * `Description.Dangles`
    * `Adjacency.push`
    * `Graph.Represents`
    * `Graph.TablesAgree`

  Key theorems include:
    * `Graph.ofDescription_eq_error_iff`
    * `Graph.map_filter_concat`
    * `Graph.adjacency_eq_foldl`
    * `Graph.sinkCount_eq_countP`
    * `Graph.represents_of_ofDescription`
    * `Graph.tablesAgree_of_isClosed`
    * `Graph.ofDescription_is_exact`
-/

namespace PipelineScript

------------------------------------------------------------
-- Ends That Lead Nowhere
------------------------------------------------------------

/-
  The first connection with an end that is no node, and that
  end. Of two such ends it is the source.
-/
inductive Description.Dangles
    (description : Description) :
    ConnectionId → Endpoint → NodeId → Prop where
  | source
      {before after : List (ConnectionId × Connection)}
      {id : ConnectionId}
      {connection : Connection}
      (hSplit :
        description.connections.entries =
          before ++ (id, connection) :: after)
      (hBefore :
        ∀ earlier ∈ before,
          earlier.2.source ∈ description.nodes.keys ∧
            earlier.2.target ∈ description.nodes.keys)
      (hSource : connection.source ∉ description.nodes.keys) :
      Dangles description id .source connection.source
  | target
      {before after : List (ConnectionId × Connection)}
      {id : ConnectionId}
      {connection : Connection}
      (hSplit :
        description.connections.entries =
          before ++ (id, connection) :: after)
      (hBefore :
        ∀ earlier ∈ before,
          earlier.2.source ∈ description.nodes.keys ∧
            earlier.2.target ∈ description.nodes.keys)
      (hSource : connection.source ∈ description.nodes.keys)
      (hTarget : connection.target ∉ description.nodes.keys) :
      Dangles description id .target connection.target

namespace Graph

variable {description : Description} {graph : Graph}

/- A graph cannot be made if an end leads nowhere. -/
theorem ofDescription_eq_error_iff
    {error : CompileError} :
    ofDescription description = .error error ↔
      ∃ id endpoint key,
        description.Dangles id endpoint key ∧
          error =
            .validation (.danglingConnection id endpoint key) := by
  have hEdges :
      ofDescription description = .error error ↔
        edgesOf description.nodes.keys
            description.connections.entries =
          .error error := by
    simp only [ofDescription, bind_eq_error, reduceCtorEq,
      and_false, exists_false, or_false]
  rw [hEdges, edgesOf_eq_error_iff]
  constructor
  · rintro ⟨before, id, connection, after, hSplit, hBefore,
      hEdge⟩
    rcases edgeOf_eq_error_iff.mp hEdge with
      ⟨hSource, hError⟩ | ⟨hSource, hTarget, hError⟩
    · exact ⟨_, _, _, .source hSplit hBefore hSource, hError⟩
    · exact ⟨_, _, _, .target hSplit hBefore hSource hTarget,
        hError⟩
  · rintro ⟨_, _, _, hDangles, rfl⟩
    cases hDangles with
    | source hSplit hBefore hSource =>
        exact ⟨_, _, _, _, hSplit, hBefore,
          edgeOf_eq_error_iff.mpr (Or.inl ⟨hSource, rfl⟩)⟩
    | target hSplit hBefore hSource hTarget =>
        exact ⟨_, _, _, _, hSplit, hBefore,
          edgeOf_eq_error_iff.mpr
            (Or.inr ⟨hSource, hTarget, rfl⟩)⟩

------------------------------------------------------------
-- Gathering Edges
------------------------------------------------------------

/-
  One more item changes what is read of the items of its own
  place, and of no other.
-/
theorem map_filter_concat
    {α β : Type}
    (bound : Nat)
    (place : α → Nat)
    (read : List α → β)
    (step : α → β → β)
    (hStep :
      ∀ items item,
        read (items ++ [item]) = step item (read items))
    (items : List α)
    (item : α) :
    ((List.range bound).map fun index =>
        read ((items ++ [item]).filter (place · == index))) =
      ((List.range bound).map fun index =>
        read (items.filter (place · == index))).modify
          (place item) (step item) := by
  apply List.ext_getElem
  · simp
  · intro index hLeft hRight
    rw [List.getElem_modify]
    by_cases hPlace : place item = index
    · simp [hPlace, List.filter_append, hStep]
    · simp [hPlace, List.filter_append]

/- What is read place by place is gathered item by item. -/
theorem map_filter_eq_foldl
    {α β : Type}
    (bound : Nat)
    (place : α → Nat)
    (read : List α → β)
    (step : α → β → β)
    (hStep :
      ∀ items item,
        read (items ++ [item]) = step item (read items))
    (items : List α) :
    ((List.range bound).map fun index =>
        read (items.filter (place · == index))) =
      items.foldl
        (fun table item => table.modify (place item) (step item))
        (List.replicate bound (read [])) := by
  induction items using List.reverseRecOn with
  | nil => simp
  | append_singleton items item ih =>
      rw [map_filter_concat bound place read step hStep, ih,
        List.foldl_concat]

end Graph

namespace Adjacency

/- So many places, and no edges. -/
def bare (size : Nat) : Adjacency where
  targets := List.replicate size []
  inDegree := List.replicate size 0

/- One more edge, behind all others from its source. -/
def push
    (adjacency : Adjacency)
    (source target : Nat) : Adjacency where
  targets := adjacency.targets.modify source (· ++ [target])
  inDegree := adjacency.inDegree.modify target (· + 1)

end Adjacency

namespace Graph

variable {description : Description} {graph : Graph}

/- One more edge of a graph is one more edge of its table. -/
theorem adjacency_concat
    (nodes : List Node)
    (edges : List Edge)
    (edge : Edge) :
    (Graph.mk nodes (edges ++ [edge])).adjacency =
      (Graph.mk nodes edges).adjacency.push edge.source
        edge.target := by
  have hTargets :=
    map_filter_concat nodes.length Edge.source
      (List.map Edge.target)
      (fun edge targets => targets ++ [edge.target])
      (fun _ _ => List.map_append) edges edge
  have hDegrees :=
    map_filter_concat nodes.length Edge.target
      (fun edges => (edges.map Edge.source).length)
      (fun _ degree => degree + 1)
      (fun _ _ => by simp) edges edge
  exact congrArg₂ Adjacency.mk hTargets hDegrees

/- The table of a graph is gathered edge by edge. -/
theorem adjacency_eq_foldl (graph : Graph) :
    graph.adjacency =
      graph.edges.foldl
        (fun table edge => table.push edge.source edge.target)
        (.bare graph.size) := by
  rcases graph with ⟨nodes, edges⟩
  induction edges using List.reverseRecOn with
  | nil =>
      have hNone (n : Nat) (α : Type) (a : α) :
          (List.range n).map (fun _ => a) =
            List.replicate n a := by
        simp
      exact congrArg₂ Adjacency.mk (hNone _ _ _) (hNone _ _ _)
  | append_singleton edges edge ih =>
      rw [adjacency_concat, ih, List.foldl_concat]
      rfl

/- So are the inputs of all places. -/
theorem inputs_eq_foldl (graph : Graph) :
    graph.places.map graph.inputsOf =
      graph.edges.foldl
        (fun inputs edge =>
          inputs.modify edge.target (· ++ [edge.source]))
        (List.replicate graph.size []) :=
  map_filter_eq_foldl graph.size Edge.target
    (List.map Edge.source)
    (fun edge inputs => inputs ++ [edge.source])
    (fun _ _ => List.map_append) graph.edges

/- A place is marked if there is an edge from it. -/
theorem sourceMarks_eq_map (graph : Graph) :
    graph.sourceMarks =
      graph.places.map fun place =>
        !(graph.outputsOf place).isEmpty := by
  have hMarks :=
    map_filter_eq_foldl graph.size Edge.source
      (fun edges => !(edges.map Edge.target).isEmpty)
      (fun _ _ => true) (by simp) graph.edges
  simp only [← List.set_eq_modify] at hMarks
  exact hMarks.symm

/- The places without marks are those that lead nowhere. -/
theorem sinkCount_eq_countP (graph : Graph) :
    graph.sinkCount =
      graph.places.countP fun place =>
        (graph.outputsOf place).isEmpty := by
  rw [sinkCount, sourceMarks_eq_map, List.countP_map]
  apply List.countP_congr
  intro place _
  simp

------------------------------------------------------------
-- Graphs and Their Descriptions
------------------------------------------------------------

/-
  The graph has the nodes described in their order, each in a
  place of its own, and an edge for every connection in turn.
  What follows a place, and what leads to it, are the ends of
  the connections of its node, in the order of these.
-/
structure Represents
    (graph : Graph)
    (description : Description) : Prop where
  nodes_eq :
    (graph.nodes.map fun node =>
        (node.id, (⟨node.kind, node.options⟩ : NodeRecord))) =
      description.nodes.entries
  indexOf?_eq_some_iff :
    ∀ id place,
      graph.indexOf? id = some place ↔
        ∃ node, graph.nodes[place]? = some node ∧ node.id = id
  indexOf?_eq_none_iff :
    ∀ id,
      graph.indexOf? id = none ↔ id ∉ description.nodes.keys
  edges_eq :
    List.Forall₂
      (fun (entry : ConnectionId × Connection) (edge : Edge) =>
        edge.id = entry.1 ∧
          graph.indexOf? entry.2.source = some edge.source ∧
          graph.indexOf? entry.2.target = some edge.target)
      description.connections.entries graph.edges
  targets_eq :
    ∀ id place,
      graph.indexOf? id = some place →
        (graph.adjacency.next place).map some =
          (description.targetsOf id).map graph.indexOf?
  inputs_eq :
    ∀ id place,
      graph.indexOf? id = some place →
        (graph.inputsOf place).map some =
          (description.sourcesOf id).map graph.indexOf?

/-
  The tables of a graph count each edge alike, and its sources
  and sinks are those of the tables.
-/
structure TablesAgree (graph : Graph) : Prop where
  adjacency_eq :
    graph.adjacency =
      graph.edges.foldl
        (fun table edge => table.push edge.source edge.target)
        (.bare graph.size)
  inputs_eq :
    graph.places.map graph.inputsOf =
      graph.edges.foldl
        (fun inputs edge =>
          inputs.modify edge.target (· ++ [edge.source]))
        (List.replicate graph.size [])
  count_targets :
    ∀ source target,
      (graph.adjacency.next source).count target =
        (graph.edges.map fun edge =>
          (edge.source, edge.target)).count (source, target)
  count_inputs :
    ∀ source target,
      (graph.inputsOf target).count source =
        (graph.edges.map fun edge =>
          (edge.source, edge.target)).count (source, target)
  inDegree_eq :
    graph.adjacency.inDegree =
      graph.places.map fun place =>
        (graph.inputsOf place).length
  sourceCount_eq :
    graph.sourceCount = graph.adjacency.inDegree.count 0
  sinkCount_eq :
    graph.sinkCount =
      graph.adjacency.targets.countP List.isEmpty

/- A node has the place of its key. -/
theorem indexOf?_eq_some_iff
    (hBuilt : ofDescription description = .ok graph)
    {id : NodeId}
    {place : Nat} :
    graph.indexOf? id = some place ↔
      description.nodes.keys[place]? = some id := by
  have hKeys : description.nodes.keys.Nodup :=
    description.nodes.distinct
  rw [← findIdx?_eq_some_iff hKeys, ← map_id_nodesOf,
    ← (ofDescription_eq_ok_iff.mp hBuilt).1, List.findIdx?_map]
  rfl

/- A key that is there has its place. -/
theorem indexOf?_eq_some_idxOf
    (hBuilt : ofDescription description = .ok graph)
    {id : NodeId}
    (hKey : id ∈ description.nodes.keys) :
    graph.indexOf? id =
      some (description.nodes.keys.idxOf id) := by
  rw [indexOf?_eq_some_iff hBuilt]
  exact List.getElem?_idxOf hKey

/- A graph that was made represents what it was made from. -/
theorem represents_of_ofDescription
    (hBuilt : ofDescription description = .ok graph) :
    graph.Represents description where
  nodes_eq := by
    rw [(ofDescription_eq_ok_iff.mp hBuilt).1, nodesOf,
      List.map_map]
    exact List.map_id _
  indexOf?_eq_some_iff := by
    intro id place
    rw [indexOf?_eq_some_iff hBuilt,
      getElem?_keys_eq_some_iff hBuilt]
  indexOf?_eq_none_iff := by
    intro id
    rw [Option.eq_none_iff_forall_ne_some, List.mem_iff_getElem?,
      not_exists]
    exact forall_congr' fun place =>
      not_congr (indexOf?_eq_some_iff hBuilt)
  edges_eq := by
    refine (ofDescription_eq_ok_iff.mp hBuilt).2.imp ?_
    intro entry edge hResolves
    exact ⟨hResolves.id_eq,
      (indexOf?_eq_some_iff hBuilt).mpr hResolves.source_eq,
      (indexOf?_eq_some_iff hBuilt).mpr hResolves.target_eq⟩
  targets_eq := by
    intro id place hPlace
    have hLinked :=
      exists_ofDescription_iff_isLinked.mp ⟨graph, hBuilt⟩
    rw [indexOf?_eq_some_iff hBuilt] at hPlace
    rw [next_adjacency (isClosed_of_ofDescription hBuilt),
      outputsOf_eq hBuilt hPlace, List.map_map]
    apply List.map_congr_left
    intro target hTarget
    exact (indexOf?_eq_some_idxOf hBuilt
      (Description.mem_keys_of_mem_targetsOf hLinked
        hTarget)).symm
  inputs_eq := by
    intro id place hPlace
    have hLinked :=
      exists_ofDescription_iff_isLinked.mp ⟨graph, hBuilt⟩
    rw [indexOf?_eq_some_iff hBuilt] at hPlace
    rw [inputsOf_eq hBuilt hPlace, List.map_map]
    apply List.map_congr_left
    intro source hSource
    rcases List.mem_map.mp hSource with
      ⟨connection, hConnection, rfl⟩
    exact (indexOf?_eq_some_idxOf hBuilt
      (hLinked connection (List.mem_filter.mp hConnection).1).1
      ).symm

/- The tables of a graph agree if its edges join its places. -/
theorem tablesAgree_of_isClosed
    (hClosed : graph.IsClosed) :
    graph.TablesAgree where
  adjacency_eq := adjacency_eq_foldl graph
  inputs_eq := inputs_eq_foldl graph
  count_targets := by
    intro source target
    rw [next_adjacency hClosed, outputsOf, List.count,
      List.count, List.countP_map, List.countP_map,
      List.countP_filter]
    apply List.countP_congr
    intro edge _
    simp [and_comm]
  count_inputs := by
    intro source target
    rw [inputsOf, List.count, List.count, List.countP_map,
      List.countP_map, List.countP_filter]
    apply List.countP_congr
    intro edge _
    simp
  inDegree_eq := rfl
  sourceCount_eq := by
    rw [sourceCount, adjacency, List.count, List.countP_map]
    apply List.countP_congr
    intro place _
    simp
  sinkCount_eq := by
    rw [sinkCount_eq_countP, adjacency, List.countP_map]
    rfl

/-
  A description has no graph exactly if an end of a connection
  is no node, and the error then tells the first connection
  with such an end. Else the graph represents the description,
  and its tables agree. It is built exactly if there are places
  for all nodes, and what is refused for want of them is told
  before any connection is looked at.
-/
theorem ofDescription_is_exact (description : Description) :
    ((∃ error, ofDescription description = .error error) ↔
        ∃ connection ∈ description.connections.values,
          connection.source ∉ description.nodes.keys ∨
            connection.target ∉ description.nodes.keys) ∧
      (∀ error,
        ofDescription description = .error error ↔
          ∃ id endpoint key,
            description.Dangles id endpoint key ∧
              error =
                .validation
                  (.danglingConnection id endpoint key)) ∧
      (∀ graph,
        ofDescription description = .ok graph →
          graph.Represents description ∧ graph.TablesAgree) ∧
      (description.nodes.size ≤ Nat.pow 2 32 →
        build description = ofDescription description) ∧
      (Nat.pow 2 32 < description.nodes.size →
        build description =
          .error (.validation .tooManyNodes)) := by
  refine ⟨?_, ?_, ?_, ?_, ?_⟩
  · have hFails :
        (∃ error, ofDescription description = .error error) ↔
          ¬ ∃ graph, ofDescription description = .ok graph := by
      cases ofDescription description <;> simp
    rw [hFails, exists_ofDescription_iff]
    push Not
    simp only [imp_iff_not_or]
  · intro error
    exact ofDescription_eq_error_iff
  · intro graph hBuilt
    exact ⟨represents_of_ofDescription hBuilt,
      tablesAgree_of_isClosed
        (isClosed_of_ofDescription hBuilt)⟩
  · intro hSize
    exact if_pos hSize
  · intro hSize
    exact if_neg (Nat.not_le.mpr hSize)

/-
  A connection that is there twice, a node connected to itself,
  and, behind these, a connection with no node at either end.
-/
theorem ofDescription_of_doubled_connections :
    let a : NodeId := ⟨"a"⟩
    let b : NodeId := ⟨"b"⟩
    let linked : Description :=
      ((((Description.empty.putNode a "DataLoader" .empty
        ).putNode b "Merge" .empty
        ).putConnection ⟨"k"⟩ (.between a b)
        ).putConnection ⟨"l"⟩ (.between a b)
        ).putConnection ⟨"m"⟩ (.between b b)
    let loose :=
      linked.putConnection ⟨"n"⟩ (.between ⟨"c"⟩ ⟨"d"⟩)
    (∃ graph,
      ofDescription linked = .ok graph ∧
        graph.Represents linked ∧
        graph.TablesAgree ∧
        graph.adjacency = ⟨[[1, 1], [1]], [0, 3]⟩) ∧
      ofDescription loose =
        .error
          (.validation
            (.danglingConnection ⟨"n"⟩ .source ⟨"c"⟩)) ∧
      loose.Dangles ⟨"n"⟩ .source ⟨"c"⟩ := by
  intro a b linked loose
  have hBuilt :
      ofDescription linked =
        .ok
          ⟨nodesOf linked,
            [⟨⟨"k"⟩, 0, 1⟩, ⟨⟨"l"⟩, 0, 1⟩, ⟨⟨"m"⟩, 1, 1⟩]⟩ :=
    rfl
  have hFails :
      ofDescription loose =
        .error
          (.validation
            (.danglingConnection ⟨"n"⟩ .source ⟨"c"⟩)) :=
    rfl
  have hExact :=
    (ofDescription_is_exact linked).2.2.1 _ hBuilt
  rcases ((ofDescription_is_exact loose).2.1 _).mp hFails with
    ⟨id, endpoint, key, hDangles, hError⟩
  cases hError
  exact ⟨⟨_, hBuilt, hExact.1, hExact.2, by rfl⟩, hFails,
    hDangles⟩

end Graph

end PipelineScript
