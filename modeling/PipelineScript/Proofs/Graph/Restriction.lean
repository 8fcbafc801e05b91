import PipelineScript.Proofs.Description.Restriction
import PipelineScript.Proofs.Graph.Part

/-
  The graph of a part of a description is a part of the graph
  of the description, and so their orders go together.

  Key definitions include:
    * `Graph.placeIn?`

  Key theorems include:
    * `Graph.outputsOf_eq`
    * `Graph.inputsOf_eq`
    * `Graph.isPart_of_restrict`
    * `Graph.order_restrict`
-/

namespace PipelineScript

namespace Graph

variable {keys : List NodeId} {inside : NodeId → Bool}

------------------------------------------------------------
-- Places of a Part
------------------------------------------------------------

/- The place of a key among those that are inside a set. -/
def placeIn?
    (keys : List NodeId)
    (inside : NodeId → Bool)
    (place : Nat) : Option Nat :=
  keys[place]?.bind fun id =>
    if inside id then
      some ((keys.filter inside).idxOf id)
    else
      none

/- The same key stands in a place and in its place inside. -/
theorem placeIn?_eq_some_iff
    (hKeys : keys.Nodup)
    {outer inner : Nat} :
    placeIn? keys inside outer = some inner ↔
      ∃ id, keys[outer]? = some id ∧
        (keys.filter inside)[inner]? = some id := by
  have hNodup : (keys.filter inside).Nodup := hKeys.filter _
  unfold placeIn?
  rw [Option.bind_eq_some_iff]
  constructor
  · rintro ⟨id, hId, hPlace⟩
    split at hPlace
    · next hInside =>
        rw [Option.some.injEq] at hPlace
        subst hPlace
        have hMem : id ∈ keys.filter inside :=
          List.mem_filter.mpr
            ⟨List.mem_of_getElem? hId, hInside⟩
        exact ⟨id, hId, List.getElem?_idxOf hMem⟩
    · simp at hPlace
  · rintro ⟨id, hId, hInner⟩
    rcases List.getElem?_eq_some_iff.mp hInner with ⟨hLt, rfl⟩
    have hInside :=
      (List.mem_filter.mp (List.getElem_mem hLt)).2
    exact ⟨_, hId, by
      rw [if_pos hInside, hNodup.idxOf_getElem]⟩

/- What is read off items by place is read off the items. -/
theorem filterMap_range_getElem?
    {α β : Type}
    (items : List α)
    (f : α → Option β) :
    ((List.range items.length).filterMap fun place =>
        items[place]?.bind f) =
      items.filterMap f := by
  calc
    ((List.range items.length).filterMap fun place =>
        items[place]?.bind f)
      = ((List.range items.length).map (items[·]?)).filterMap
          (·.bind f) := by
        rw [List.filterMap_map]
        rfl
    _ = items.filterMap f := by
        rw [map_getElem?_range, List.filterMap_map]
        rfl

/- The places inside a set are counted from zero. -/
theorem filterMap_placeIn?_range
    (hKeys : keys.Nodup)
    (inside : NodeId → Bool) :
    (List.range keys.length).filterMap (placeIn? keys inside) =
      List.range (keys.filter inside).length := by
  have hNodup : (keys.filter inside).Nodup := hKeys.filter _
  unfold placeIn?
  rw [filterMap_range_getElem?,
    ← List.filterMap_filter
      (f := fun id => some ((keys.filter inside).idxOf id)),
    List.filterMap_eq_map']
  apply List.ext_getElem
  · simp
  · intro place hPlace hOther
    have hLt : place < (keys.filter inside).length := by
      simpa using hOther
    simp [hNodup.idxOf_getElem place hLt]

/- Places of keys that are inside a set, one by one. -/
theorem filterMap_placeIn?_idxOf
    {ids : List NodeId}
    (hIds : ∀ id ∈ ids, id ∈ keys) :
    (ids.map keys.idxOf).filterMap (placeIn? keys inside) =
      (ids.filter inside).map (keys.filter inside).idxOf := by
  rw [List.filterMap_map,
    ← List.filterMap_eq_map' (f := (keys.filter inside).idxOf),
    List.filterMap_filter]
  apply List.filterMap_congr
  intro id hId
  simp only [Function.comp_apply, placeIn?,
    List.getElem?_idxOf (hIds id hId), Option.bind_some]

------------------------------------------------------------
-- Neighbours
------------------------------------------------------------

variable {description : Description} {graph part : Graph}

/- The outputs of a place are the places of its targets. -/
theorem outputsOf_eq
    (hBuilt : ofDescription description = .ok graph)
    {place : Nat}
    {id : NodeId}
    (hPlace : description.nodes.keys[place]? = some id) :
    graph.outputsOf place =
      (description.targetsOf id).map
        description.nodes.keys.idxOf := by
  have hKeys : description.nodes.keys.Nodup :=
    description.nodes.distinct
  -- A connection comes from the key if its edge does from the
  -- place.
  have hSame :
      ∀ (entry : ConnectionId × Connection) (edge : Edge),
        Resolves description.nodes.keys entry edge →
          (entry.2.source == id) = (edge.source == place) := by
    intro entry edge hResolves
    rcases List.getElem?_eq_some_iff.mp hResolves.source_eq with
      ⟨hSource, hSourceId⟩
    rcases List.getElem?_eq_some_iff.mp hPlace with ⟨hLt, hId⟩
    rw [Bool.eq_iff_iff, beq_iff_eq, beq_iff_eq, ← hSourceId,
      ← hId, hKeys.getElem_inj_iff]
  have hTarget :
      ∀ (entry : ConnectionId × Connection) (edge : Edge),
        Resolves description.nodes.keys entry edge →
          description.nodes.keys.idxOf entry.2.target =
            edge.target := by
    intro entry edge hResolves
    rcases List.getElem?_eq_some_iff.mp hResolves.target_eq with
      ⟨hLt, hId⟩
    rw [← hId, hKeys.idxOf_getElem]
  have hAll :=
    Pairing.map_filter_eq
      (ofDescription_eq_ok_iff.mp hBuilt).2 hSame hTarget
  rw [outputsOf, Description.targetsOf, Table.values,
    List.filter_map, List.map_map, List.map_map]
  exact hAll.symm

/- A place that has no key has no outputs. -/
theorem outputsOf_eq_nil
    (hBuilt : ofDescription description = .ok graph)
    {place : Nat}
    (hPlace : description.nodes.keys[place]? = none) :
    graph.outputsOf place = [] := by
  rw [outputsOf, List.map_eq_nil_iff, List.filter_eq_nil_iff]
  intro edge hEdge hSource
  rcases Pairing.exists_left
      (ofDescription_eq_ok_iff.mp hBuilt).2 hEdge with
    ⟨entry, -, hResolves⟩
  rw [← beq_iff_eq.mp hSource, hResolves.source_eq] at hPlace
  exact absurd hPlace (by simp)

/- The inputs of a place are the places of its sources. -/
theorem inputsOf_eq
    (hBuilt : ofDescription description = .ok graph)
    {place : Nat}
    {id : NodeId}
    (hPlace : description.nodes.keys[place]? = some id) :
    graph.inputsOf place =
      (description.sourcesOf id).map
        description.nodes.keys.idxOf := by
  have hKeys : description.nodes.keys.Nodup :=
    description.nodes.distinct
  have hInputs := map_getElem?_inputsOf hBuilt hPlace
  -- An input has a key, which is found in its place only.
  have hIndex :
      ∀ input ∈ graph.inputsOf place,
        description.nodes.keys[input]?.map
            description.nodes.keys.idxOf =
          some input := by
    intro input hInput
    have hKey :
        description.nodes.keys[input]? ∈
          (description.sourcesOf id).map some := by
      rw [← hInputs]
      exact List.mem_map_of_mem hInput
    rcases List.mem_map.mp hKey with ⟨source, -, hSource⟩
    rcases List.getElem?_eq_some_iff.mp hSource.symm with
      ⟨hLt, hId⟩
    rw [← hSource, Option.map_some, ← hId,
      hKeys.idxOf_getElem]
  apply List.map_injective_iff.mpr (Option.some_injective Nat)
  calc
    (graph.inputsOf place).map some
      = ((graph.inputsOf place).map
            (description.nodes.keys[·]?)).map
          (Option.map description.nodes.keys.idxOf) := by
        rw [List.map_map]
        exact (List.map_congr_left hIndex).symm
    _ = ((description.sourcesOf id).map
          description.nodes.keys.idxOf).map some := by
        rw [hInputs, List.map_map, List.map_map]
        rfl

/- A place that has no key has no inputs. -/
theorem inputsOf_eq_nil
    (hBuilt : ofDescription description = .ok graph)
    {place : Nat}
    (hPlace : description.nodes.keys[place]? = none) :
    graph.inputsOf place = [] := by
  rw [inputsOf, List.map_eq_nil_iff, List.filter_eq_nil_iff]
  intro edge hEdge hTarget
  rcases Pairing.exists_left
      (ofDescription_eq_ok_iff.mp hBuilt).2 hEdge with
    ⟨entry, -, hResolves⟩
  rw [← beq_iff_eq.mp hTarget, hResolves.target_eq] at hPlace
  exact absurd hPlace (by simp)

/- A key has as many inputs as it has sources. -/
theorem length_inputsOf
    (hBuilt : ofDescription description = .ok graph)
    {place : Nat}
    {id : NodeId}
    (hPlace : description.nodes.keys[place]? = some id) :
    (graph.inputsOf place).length =
      (description.sourcesOf id).length := by
  have hInputs :=
    congrArg List.length (map_getElem?_inputsOf hBuilt hPlace)
  simpa using hInputs

/- The degree of a key is the number of its sources. -/
theorem inDegree_eq
    (hBuilt : ofDescription description = .ok graph)
    {place : Nat}
    {id : NodeId}
    (hPlace : description.nodes.keys[place]? = some id) :
    graph.adjacency.inDegree.getD place 0 =
      (description.sourcesOf id).length := by
  have hLt := lt_size_of_getElem?_keys hBuilt hPlace
  rw [← length_inputsOf hBuilt hPlace]
  simp [adjacency, places, hLt]

------------------------------------------------------------
-- Orders
------------------------------------------------------------

/- The sorter sees a place for every key. -/
theorem size_adjacency
    (hBuilt : ofDescription description = .ok graph) :
    graph.adjacency.size = description.nodes.keys.length := by
  rw [← size_eq hBuilt]
  simp [Adjacency.size, adjacency, places]

/- What is kept has the same key in both graphs. -/
theorem exists_key_of_placeIn?
    {outer inner : Nat}
    (hKept :
      placeIn? description.nodes.keys inside outer =
        some inner) :
    ∃ id, description.nodes.keys[outer]? = some id ∧
      (description.restrict inside).nodes.keys[inner]? =
        some id ∧
      inside id := by
  rcases (placeIn?_eq_some_iff
      description.nodes.distinct).mp hKept with
    ⟨id, hOuter, hInner⟩
  exact ⟨id, hOuter,
    description.keys_restrict inside ▸ hInner,
    (List.mem_filter.mp (List.mem_of_getElem? hInner)).2⟩

/- The graph of a part is a part of the graph. -/
theorem isPart_of_restrict
    (hBuilt : ofDescription description = .ok graph)
    (hPart :
      ofDescription (description.restrict inside) = .ok part)
    (hAlone : description.StandsAlone inside) :
    Adjacency.IsPart
      (placeIn? description.nodes.keys inside)
      graph.adjacency part.adjacency := by
  have hKeys : description.nodes.keys.Nodup :=
    description.nodes.distinct
  have hLinked : description.IsLinked :=
    exists_ofDescription_iff_isLinked.mp ⟨graph, hBuilt⟩
  have hPartKeys := description.keys_restrict inside
  constructor
  · intro first second place hFirst hSecond
    rcases exists_key_of_placeIn? hFirst with
      ⟨id, hId, hPlace, -⟩
    rcases exists_key_of_placeIn? hSecond with
      ⟨other, hOther, hSame, -⟩
    rw [hPlace, Option.some.injEq] at hSame
    subst hSame
    rcases List.getElem?_eq_some_iff.mp hId with ⟨hLt, hEq⟩
    rcases List.getElem?_eq_some_iff.mp hOther with
      ⟨hLt', hEq'⟩
    exact hKeys.getElem_inj_iff.mp (hEq.trans hEq'.symm)
  · rw [size_adjacency hBuilt, size_adjacency hPart, hPartKeys]
    exact filterMap_placeIn?_range hKeys inside
  · intro outer inner hKept
    rcases exists_key_of_placeIn? hKept with
      ⟨id, hOuter, hInner, hInside⟩
    rw [next_adjacency (isClosed_of_ofDescription hBuilt),
      next_adjacency (isClosed_of_ofDescription hPart),
      outputsOf_eq hBuilt hOuter, outputsOf_eq hPart hInner,
      Description.targetsOf_restrict hInside, hPartKeys]
    exact filterMap_placeIn?_idxOf fun target hTarget =>
      Description.mem_keys_of_mem_targetsOf hLinked hTarget
  · intro outer hOutside
    rw [next_adjacency (isClosed_of_ofDescription hBuilt)]
    cases hOuter : description.nodes.keys[outer]? with
    | none => rw [outputsOf_eq_nil hBuilt hOuter]; rfl
    | some id =>
        have hNot : ¬ inside id := by
          intro hInside
          simp [placeIn?, hOuter, hInside] at hOutside
        rw [outputsOf_eq hBuilt hOuter,
          filterMap_placeIn?_idxOf fun target hTarget =>
            Description.mem_keys_of_mem_targetsOf hLinked
              hTarget,
          Description.filter_targetsOf_of_outside hAlone hNot]
        rfl
  · intro outer inner hKept
    rcases exists_key_of_placeIn? hKept with
      ⟨id, hOuter, hInner, hInside⟩
    rw [inDegree_eq hBuilt hOuter, inDegree_eq hPart hInner,
      Description.sourcesOf_restrict hAlone hInside]

/- The keys in the places of a part are those inside the set. -/
theorem idsAt_filterMap_placeIn?
    (hBuilt : ofDescription description = .ok graph)
    (hPart :
      ofDescription (description.restrict inside) = .ok part)
    (places : List Nat) :
    part.idsAt
        (places.filterMap
          (placeIn? description.nodes.keys inside)) =
      (graph.idsAt places).filter inside := by
  have hKeys : description.nodes.keys.Nodup :=
    description.nodes.distinct
  have hIds :
      ∀ {description : Description} {graph : Graph},
        ofDescription description = .ok graph →
          ∀ place : Nat, graph.nodes[place]?.map Node.id =
            description.nodes.keys[place]? := by
    intro description graph hBuilt place
    rw [← map_id_nodesOf, List.getElem?_map,
      (ofDescription_eq_ok_iff.mp hBuilt).1]
  rw [idsAt, idsAt, List.filterMap_filterMap,
    List.filter_filterMap]
  apply List.filterMap_congr
  intro place _
  rw [hIds hBuilt]
  cases hPlace : description.nodes.keys[place]? with
  | none => simp [placeIn?, hPlace]
  | some id =>
      by_cases hInside : inside id
      · have hMem :
            id ∈ description.nodes.keys.filter inside :=
          List.mem_filter.mpr
            ⟨List.mem_of_getElem? hPlace, hInside⟩
        simp [placeIn?, hPlace, hInside, hIds hPart,
          description.keys_restrict inside,
          List.getElem?_idxOf hMem, Option.filter_some]
      · simp [placeIn?, hPlace, hInside, Option.filter_some]

/-
  A part that stands alone has the order of the whole without
  the nodes outside.
-/
theorem order_restrict
    (hBuilt : ofDescription description = .ok graph)
    (hPart :
      ofDescription (description.restrict inside) = .ok part)
    (hAlone : description.StandsAlone inside)
    {order : List Nat}
    (hOrder : graph.order = .ok order) :
    ∃ order', part.order = .ok order' ∧
      part.idsAt order' = (graph.idsAt order).filter inside := by
  refine ⟨_, ?_, idsAt_filterMap_placeIn? hBuilt hPart order⟩
  rw [order_eq_ok_iff] at hOrder ⊢
  exact (isPart_of_restrict hBuilt hPart hAlone).order_eq_ok
    (counts_adjacency (isClosed_of_ofDescription hBuilt))
    (counts_adjacency (isClosed_of_ofDescription hPart)) hOrder

end Graph

end PipelineScript
