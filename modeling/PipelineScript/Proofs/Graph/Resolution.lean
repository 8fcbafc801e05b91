import PipelineScript.Graph.Graph
import PipelineScript.Proofs.Graph.Edges
import PipelineScript.Proofs.Outcome
import PipelineScript.Proofs.Pairing

/-
  Graphs that were resolved from descriptions, and the tables
  that are read off them.

  Key definitions include:
    * `Graph.Resolves`
    * `Graph.IsClosed`

  Key theorems include:
    * `Graph.ofDescription_eq_ok_iff`
    * `Graph.exists_ofDescription_iff`
    * `Graph.edgesOf_eq_error_iff`
    * `Graph.isClosed_of_ofDescription`
    * `Graph.leads_adjacency_iff`
    * `Graph.counts_adjacency`
-/

namespace PipelineScript

namespace Graph

------------------------------------------------------------
-- Resolving Connections
------------------------------------------------------------

/- An edge that joins the places its connection names. -/
structure Resolves
    (keys : List NodeId)
    (entry : ConnectionId × Connection)
    (edge : Edge) : Prop where
  id_eq : edge.id = entry.1
  source_eq : keys[edge.source]? = some entry.2.source
  target_eq : keys[edge.target]? = some entry.2.target

variable {keys : List NodeId}

/- A key stands in one place only. -/
theorem findIdx?_eq_some_iff
    (hKeys : keys.Nodup)
    {id : NodeId}
    {place : Nat} :
    keys.findIdx? (· == id) = some place ↔
      keys[place]? = some id := by
  rw [List.findIdx?_eq_some_iff_getElem,
    List.getElem?_eq_some_iff]
  constructor
  · rintro ⟨hLength, hEq, -⟩
    exact ⟨hLength, beq_iff_eq.mp hEq⟩
  · rintro ⟨hLength, hEq⟩
    refine ⟨hLength, by simp [hEq], ?_⟩
    intro other hOther hSame
    have hIndex :=
      (List.Nodup.getElem_inj_iff hKeys).mp
        ((beq_iff_eq.mp hSame).trans hEq.symm)
    omega

/- A key is resolved to its place. -/
theorem resolve_eq_ok_iff
    (hKeys : keys.Nodup)
    {connection : ConnectionId}
    {endpoint : Endpoint}
    {id : NodeId}
    {place : Nat} :
    resolve keys connection endpoint id = .ok place ↔
      keys[place]? = some id := by
  rw [← findIdx?_eq_some_iff hKeys, resolve]
  cases keys.findIdx? (· == id) with
  | some found => simp
  | none => simp

/- A key is resolved if it is there. -/
theorem exists_resolve_iff
    (connection : ConnectionId)
    (endpoint : Endpoint)
    {id : NodeId} :
    (∃ place,
      resolve keys connection endpoint id = .ok place) ↔
      id ∈ keys := by
  unfold resolve
  cases hFound : keys.findIdx? (· == id) with
  | some place =>
      rcases List.findIdx?_eq_some_iff_getElem.mp hFound with
        ⟨hLength, hEq, -⟩
      have hMem : id ∈ keys :=
        beq_iff_eq.mp hEq ▸ List.getElem_mem hLength
      simp [hMem]
  | none =>
      have hNone := List.findIdx?_eq_none_iff.mp hFound
      have hMem : id ∉ keys := by
        intro hMem
        simpa using hNone id hMem
      simp [hMem]

/- Only a key that is not there cannot be resolved. -/
theorem resolve_eq_error_iff
    {connection : ConnectionId}
    {endpoint : Endpoint}
    {id : NodeId}
    {error : CompileError} :
    resolve keys connection endpoint id = .error error ↔
      id ∉ keys ∧
        error =
          .validation
            (.danglingConnection connection endpoint id) := by
  rw [← exists_resolve_iff connection endpoint]
  unfold resolve
  cases keys.findIdx? (· == id) with
  | some place => simp
  | none => simp [eq_comm]

/- The edge of a connection joins the places it names. -/
theorem edgeOf_eq_ok_iff
    (hKeys : keys.Nodup)
    (entry : ConnectionId × Connection)
    {edge : Edge} :
    edgeOf keys entry.1 entry.2 = .ok edge ↔
      Resolves keys entry edge := by
  unfold edgeOf
  simp only [bind_eq_ok, resolve_eq_ok_iff hKeys,
    Except.ok.injEq]
  constructor
  · rintro ⟨source, hSource, target, hTarget, rfl⟩
    exact ⟨rfl, hSource, hTarget⟩
  · rintro ⟨hId, hSource, hTarget⟩
    exact ⟨edge.source, hSource, edge.target, hTarget,
      by rw [← hId]⟩

/- The edges of connections join the places they name. -/
theorem edgesOf_eq_ok_iff
    (hKeys : keys.Nodup)
    {entries : List (ConnectionId × Connection)}
    {edges : List Edge} :
    edgesOf keys entries = .ok edges ↔
      List.Forall₂ (Resolves keys) entries edges := by
  induction entries generalizing edges with
  | nil =>
      rw [List.forall₂_nil_left_iff]
      simp only [edgesOf, Except.ok.injEq]
      exact eq_comm
  | cons entry entries ih =>
      rcases entry with ⟨id, connection⟩
      simp only [edgesOf, bind_eq_ok, Except.ok.injEq, ih,
        edgeOf_eq_ok_iff hKeys (id, connection),
        List.forall₂_cons_left_iff]
      constructor
      · rintro ⟨edge, hEdge, rest, hRest, rfl⟩
        exact ⟨edge, rest, hEdge, hRest, rfl⟩
      · rintro ⟨edge, rest, hEdge, hRest, rfl⟩
        exact ⟨edge, hEdge, rest, hRest, rfl⟩

/- A connection has an edge if both of its ends are there. -/
theorem exists_edgeOf_iff
    (id : ConnectionId)
    {connection : Connection} :
    (∃ edge, edgeOf keys id connection = .ok edge) ↔
      connection.source ∈ keys ∧ connection.target ∈ keys := by
  rw [← exists_resolve_iff id .source,
    ← exists_resolve_iff id .target]
  simp only [edgeOf, bind_eq_ok, Except.ok.injEq]
  constructor
  · rintro ⟨_, source, hSource, target, hTarget, _⟩
    exact ⟨⟨source, hSource⟩, ⟨target, hTarget⟩⟩
  · rintro ⟨⟨source, hSource⟩, ⟨target, hTarget⟩⟩
    exact ⟨_, source, hSource, target, hTarget, rfl⟩

/- Else its source is not there, or its target is not. -/
theorem edgeOf_eq_error_iff
    {id : ConnectionId}
    {connection : Connection}
    {error : CompileError} :
    edgeOf keys id connection = .error error ↔
      connection.source ∉ keys ∧
          error =
            .validation
              (.danglingConnection id .source
                connection.source) ∨
        connection.source ∈ keys ∧
          connection.target ∉ keys ∧
            error =
              .validation
                (.danglingConnection id .target
                  connection.target) := by
  simp only [edgeOf, bind_eq_error, resolve_eq_error_iff,
    reduceCtorEq, and_false, exists_false, or_false,
    exists_and_right, exists_resolve_iff]

/- Connections have edges if both ends of each are there. -/
theorem exists_edgesOf_iff
    (keys : List NodeId)
    (entries : List (ConnectionId × Connection)) :
    (∃ edges, edgesOf keys entries = .ok edges) ↔
      ∀ entry ∈ entries,
        entry.2.source ∈ keys ∧ entry.2.target ∈ keys := by
  induction entries with
  | nil => simp [edgesOf]
  | cons entry entries ih =>
      rcases entry with ⟨id, connection⟩
      rw [List.forall_mem_cons, ← ih, ← exists_edgeOf_iff id]
      simp only [edgesOf, bind_eq_ok, Except.ok.injEq]
      constructor
      · rintro ⟨_, edge, hEdge, edges, hEdges, _⟩
        exact ⟨⟨edge, hEdge⟩, ⟨edges, hEdges⟩⟩
      · rintro ⟨⟨edge, hEdge⟩, ⟨edges, hEdges⟩⟩
        exact ⟨_, edge, hEdge, edges, hEdges, rfl⟩

/- Else the first connection without an edge is the fault. -/
theorem edgesOf_eq_error_iff
    {entries : List (ConnectionId × Connection)}
    {error : CompileError} :
    edgesOf keys entries = .error error ↔
      ∃ before id connection after,
        entries = before ++ (id, connection) :: after ∧
          (∀ earlier ∈ before,
            earlier.2.source ∈ keys ∧
              earlier.2.target ∈ keys) ∧
          edgeOf keys id connection = .error error := by
  induction entries with
  | nil => simp [edgesOf]
  | cons entry entries ih =>
      rcases entry with ⟨id, connection⟩
      have hStep :
          edgesOf keys ((id, connection) :: entries) =
              .error error ↔
            edgeOf keys id connection = .error error ∨
              (connection.source ∈ keys ∧
                connection.target ∈ keys) ∧
                edgesOf keys entries = .error error := by
        simp only [edgesOf, bind_eq_error, reduceCtorEq,
          and_false, exists_false, or_false, exists_and_right,
          exists_edgeOf_iff]
      rw [hStep, ih]
      constructor
      · rintro (hEdge | ⟨hFirst, before, other, later, after,
          rfl, hBefore, hEdge⟩)
        · exact ⟨[], id, connection, entries, rfl, by simp,
            hEdge⟩
        · refine ⟨(id, connection) :: before, other, later,
            after, rfl, ?_, hEdge⟩
          exact List.forall_mem_cons.mpr ⟨hFirst, hBefore⟩
      · rintro ⟨before, other, later, after, hSplit, hBefore,
          hEdge⟩
        cases before with
        | nil =>
            cases hSplit
            exact Or.inl hEdge
        | cons first before =>
            cases hSplit
            rw [List.forall_mem_cons] at hBefore
            exact Or.inr ⟨hBefore.1, before, other, later,
              after, rfl, hBefore.2, hEdge⟩

/- What cannot be resolved is an end that leads nowhere. -/
theorem edgesOf_eq_error
    {entries : List (ConnectionId × Connection)}
    {error : CompileError}
    (hError : edgesOf keys entries = .error error) :
    ∃ connection endpoint id,
      error =
        .validation
          (.danglingConnection connection endpoint id) := by
  rcases edgesOf_eq_error_iff.mp hError with
    ⟨_, id, connection, _, -, -, hEdge⟩
  rcases edgeOf_eq_error_iff.mp hEdge with
    ⟨-, rfl⟩ | ⟨-, -, rfl⟩
  · exact ⟨_, _, _, rfl⟩
  · exact ⟨_, _, _, rfl⟩

------------------------------------------------------------
-- Resolving Descriptions
------------------------------------------------------------

variable {description : Description} {graph : Graph}

/- A graph has the nodes and the connections described. -/
theorem ofDescription_eq_ok_iff :
    ofDescription description = .ok graph ↔
      graph.nodes = nodesOf description ∧
        List.Forall₂ (Resolves description.nodes.keys)
          description.connections.entries graph.edges := by
  have hKeys : description.nodes.keys.Nodup :=
    description.nodes.distinct
  unfold ofDescription
  simp only [bind_eq_ok, Except.ok.injEq,
    edgesOf_eq_ok_iff hKeys]
  constructor
  · rintro ⟨edges, hEdges, rfl⟩
    exact ⟨rfl, hEdges⟩
  · rintro ⟨hNodes, hEdges⟩
    exact ⟨graph.edges, hEdges, by rw [← hNodes]⟩

/- A graph is made if both ends of all connections are there. -/
theorem exists_ofDescription_iff :
    (∃ graph, ofDescription description = .ok graph) ↔
      ∀ connection ∈ description.connections.values,
        connection.source ∈ description.nodes.keys ∧
          connection.target ∈ description.nodes.keys := by
  have hEdges :=
    exists_edgesOf_iff description.nodes.keys
      description.connections.entries
  unfold ofDescription
  simp only [bind_eq_ok, Except.ok.injEq]
  constructor
  · rintro ⟨_, edges, hOk, _⟩ connection hConnection
    rcases List.mem_map.mp hConnection with ⟨entry, hEntry, rfl⟩
    exact hEdges.mp ⟨edges, hOk⟩ entry hEntry
  · intro hEnds
    rcases hEdges.mpr fun entry hEntry =>
        hEnds entry.2 (List.mem_map_of_mem hEntry) with
      ⟨edges, hOk⟩
    exact ⟨_, edges, hOk, rfl⟩

/- A graph that cannot be made has an end leading nowhere. -/
theorem exists_dangling_of_ofDescription
    {error : CompileError}
    (hError : ofDescription description = .error error) :
    ∃ connection endpoint id,
      error =
        .validation
          (.danglingConnection connection endpoint id) := by
  simp only [ofDescription, bind_eq_error, reduceCtorEq,
    and_false, exists_false, or_false] at hError
  exact edgesOf_eq_error hError

/- A graph that cannot be made is a problem of the structure. -/
theorem ofDescription_eq_error
    {error : CompileError}
    (hError : ofDescription description = .error error) :
    ∃ problem, error = .validation problem := by
  rcases exists_dangling_of_ofDescription hError with
    ⟨connection, endpoint, id, rfl⟩
  exact ⟨_, rfl⟩

/- The keys of the nodes are those of the description. -/
theorem map_id_nodesOf (description : Description) :
    (nodesOf description).map Node.id =
      description.nodes.keys := by
  simp [nodesOf, Table.keys, Entries.keys, Function.comp_def]

/- The node in a place, and the key that it was put under. -/
theorem getElem?_keys_eq_some_iff
    (hBuilt : ofDescription description = .ok graph)
    {place : Nat}
    {id : NodeId} :
    description.nodes.keys[place]? = some id ↔
      ∃ node, graph.nodes[place]? = some node ∧
        node.id = id := by
  rw [← map_id_nodesOf,
    ← (ofDescription_eq_ok_iff.mp hBuilt).1]
  simp

/- There is a place for every key. -/
theorem size_eq
    (hBuilt : ofDescription description = .ok graph) :
    graph.size = description.nodes.keys.length := by
  rw [size, (ofDescription_eq_ok_iff.mp hBuilt).1,
    ← map_id_nodesOf, List.length_map]

------------------------------------------------------------
-- Reading Tables off a Graph
------------------------------------------------------------

/- Every edge joins two places of the graph. -/
def IsClosed (graph : Graph) : Prop :=
  ∀ edge ∈ graph.edges,
    edge.source < graph.size ∧ edge.target < graph.size

/- A place under a key is a place of the graph. -/
theorem lt_size_of_getElem?_keys
    (hBuilt : ofDescription description = .ok graph)
    {place : Nat}
    {id : NodeId}
    (hPlace : description.nodes.keys[place]? = some id) :
    place < graph.size := by
  rcases (getElem?_keys_eq_some_iff hBuilt).mp hPlace with
    ⟨node, hNode, -⟩
  exact (List.getElem?_eq_some_iff.mp hNode).1

/- The graph of a description is closed. -/
theorem isClosed_of_ofDescription
    (hBuilt : ofDescription description = .ok graph) :
    graph.IsClosed := by
  intro edge hEdge
  rcases Pairing.exists_left
      (ofDescription_eq_ok_iff.mp hBuilt).2 hEdge with
    ⟨entry, -, hEntry⟩
  exact ⟨lt_size_of_getElem?_keys hBuilt hEntry.source_eq,
    lt_size_of_getElem?_keys hBuilt hEntry.target_eq⟩

/- The places behind a place are the targets of its edges. -/
theorem next_adjacency
    (hClosed : graph.IsClosed)
    (place : Nat) :
    graph.adjacency.next place = graph.outputsOf place := by
  by_cases hPlace : place < graph.size
  · simp [Adjacency.next, adjacency, places, hPlace]
  · have hNone : graph.outputsOf place = [] := by
      simp only [outputsOf, List.map_eq_nil_iff,
        List.filter_eq_nil_iff, beq_iff_eq]
      intro edge hEdge hSource
      exact hPlace (hSource ▸ (hClosed edge hEdge).1)
    simp [Adjacency.next, adjacency, places, hPlace, hNone]

/- The edges of the table are those of the graph. -/
theorem leads_adjacency_iff
    (hClosed : graph.IsClosed)
    {source target : Nat} :
    graph.adjacency.Leads source target ↔
      ∃ edge ∈ graph.edges,
        edge.source = source ∧ edge.target = target := by
  simp only [Adjacency.Leads, next_adjacency hClosed,
    outputsOf, List.mem_map, List.mem_filter, beq_iff_eq]
  constructor
  · rintro ⟨edge, ⟨hEdge, hSource⟩, hTarget⟩
    exact ⟨edge, hEdge, hSource, hTarget⟩
  · rintro ⟨edge, hEdge, hSource, hTarget⟩
    exact ⟨edge, ⟨hEdge, hSource⟩, hTarget⟩

/- The edges from the first places, place by place. -/
theorem flatMap_outputsOf_perm
    (graph : Graph)
    (bound : Nat) :
    ((List.range bound).flatMap graph.outputsOf).Perm
      ((graph.edges.filter (·.source < bound)).map
        Edge.target) := by
  induction bound with
  | zero => simp
  | succ bound ih =>
      have hSplit :=
        List.filter_append_perm (fun edge : Edge =>
            decide (edge.source < bound))
          (graph.edges.filter (·.source < bound + 1))
      have hEarly :
          (graph.edges.filter (·.source < bound + 1)).filter
              (fun edge => decide (edge.source < bound)) =
            graph.edges.filter (·.source < bound) := by
        rw [List.filter_filter]
        apply List.filter_congr
        intro edge _
        by_cases hEarly : edge.source < bound
        · simp [hEarly, Nat.lt_succ_of_lt hEarly]
        · simp [hEarly]
      have hLast :
          (graph.edges.filter (·.source < bound + 1)).filter
              (fun edge => !decide (edge.source < bound)) =
            graph.edges.filter (·.source == bound) := by
        rw [List.filter_filter]
        apply List.filter_congr
        intro edge _
        by_cases hSame : edge.source = bound
        · simp [hSame]
        · have hOther :
              edge.source < bound ∨
                ¬ edge.source < bound + 1 := by
            omega
          rcases hOther with hLow | hHigh
          · simp [hSame, hLow]
          · simp [hSame, hHigh]
      rw [hEarly, hLast] at hSplit
      rw [List.range_succ, List.flatMap_append,
        List.flatMap_singleton]
      refine (ih.append_right _).trans ?_
      rw [outputsOf, ← List.map_append]
      exact hSplit.map Edge.target

/- The degrees of a closed graph count its edges. -/
theorem counts_adjacency
    (hClosed : graph.IsClosed) :
    graph.adjacency.Counts fun _ => 0 where
  length_targets := by
    simp [adjacency, Adjacency.size, places]
  target_lt := by
    intro source target hLeads
    rcases (leads_adjacency_iff hClosed).mp hLeads with
      ⟨edge, hEdge, -, rfl⟩
    simpa [adjacency, Adjacency.size, places] using
      (hClosed edge hEdge).2
  degree := by
    intro place hPlace
    have hSize : place < graph.size := by
      simpa [adjacency, Adjacency.size, places] using hPlace
    have hAll :
        graph.edges.filter (·.source < graph.size) =
          graph.edges :=
      List.filter_eq_self.mpr fun edge hEdge =>
        decide_eq_true (hClosed edge hEdge).1
    have hCount :=
      (graph.flatMap_outputsOf_perm graph.size).count_eq place
    rw [hAll] at hCount
    have hInputs :
        (graph.edges.map Edge.target).count place =
          (graph.inputsOf place).length := by
      rw [inputsOf, List.length_map, List.count,
        List.countP_map, List.countP_eq_length_filter]
      rfl
    simp only [adjacency, places] at *
    rw [← List.flatMap_def, hCount, hInputs]
    simp [hSize]

end Graph

end PipelineScript
