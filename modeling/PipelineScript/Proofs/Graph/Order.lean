import PipelineScript.Proofs.Graph.Resolution
import PipelineScript.Proofs.Graph.Walk
import Mathlib.Data.List.Perm.Subperm

/-
  What an order of an adjacency table is, and which places
  are left where there is none.

  Key definitions include:
    * `Adjacency.IsOrder`
    * `Adjacency.WaitsForEver`
    * `Graph.Ready`

  Key theorems include:
    * `Adjacency.Walking.not_mem_iff`
    * `Adjacency.order_eq_ok`
    * `Adjacency.order_eq_error`
    * `Adjacency.exists_order_iff`
    * `Graph.ready_of_isOrder`
    * `Graph.order_sound_and_complete`
-/

namespace PipelineScript

namespace Adjacency

variable {adjacency : Adjacency} {extra : Nat → Nat}

------------------------------------------------------------
-- Orders and Waiting
------------------------------------------------------------

/- All places, each once, with every edge leading on. -/
structure IsOrder
    (adjacency : Adjacency)
    (places : List Nat) : Prop where
  perm : places.Perm (List.range adjacency.size)
  forward :
    ∀ {source target},
      adjacency.Leads source target →
        places.idxOf source < places.idxOf target

/- A root, or a place that is reached from one. -/
def WaitsForEver
    (adjacency : Adjacency)
    (extra : Nat → Nat)
    (place : Nat) : Prop :=
  ∃ root, adjacency.IsRoot extra root ∧
    Relation.ReflTransGen adjacency.Leads root place

/- There are no roots where nothing keeps a place waiting. -/
theorem forall_not_isRoot_iff :
    (∀ place, ¬ adjacency.IsRoot extra place) ↔
      (∀ place < adjacency.size, extra place = 0) ∧
        adjacency.IsAcyclic := by
  constructor
  · intro hNone
    refine ⟨?_, fun place hCycle => hNone place (Or.inl hCycle)⟩
    intro place hPlace
    by_contra hExtra
    exact hNone place
      (Or.inr ⟨hPlace, Nat.pos_of_ne_zero hExtra⟩)
  · rintro ⟨hExtra, hAcyclic⟩ place (hCycle | ⟨hPlace, hPos⟩)
    · exact hAcyclic place hCycle
    · exact absurd (hExtra place hPlace) (Nat.ne_of_gt hPos)

------------------------------------------------------------
-- Walks That Have Ended
------------------------------------------------------------

namespace Walking

variable {taken degrees : List Nat}

/- What leads to a place that was taken was taken before. -/
theorem idxOf_le_of_reaches
    (hWalking : adjacency.Walking extra taken [] degrees)
    {source target : Nat}
    (hReaches :
      Relation.ReflTransGen adjacency.Leads source target)
    (hTaken : target ∈ taken) :
    source ∈ taken ∧
      taken.idxOf source ≤ taken.idxOf target := by
  induction hReaches using Relation.ReflTransGen.head_induction_on with
  | refl => exact ⟨hTaken, Nat.le_refl _⟩
  | head hLeads _ ih =>
      have hBefore := hWalking.ordered hLeads ih.1
      exact
        ⟨List.idxOf_lt_length_iff.mp
          (hBefore.trans (List.idxOf_lt_length_of_mem ih.1)),
          hBefore.le.trans ih.2⟩

/- No root is ever taken. -/
theorem not_mem_of_isRoot
    (hWalking : adjacency.Walking extra taken [] degrees)
    {root : Nat}
    (hRoot : adjacency.IsRoot extra root) :
    root ∉ taken := by
  intro hTaken
  rcases hRoot with hCycle | ⟨-, hPos⟩
  · rcases Relation.TransGen.tail'_iff.mp hCycle with
      ⟨last, hReaches, hLeads⟩
    have hBefore := hWalking.ordered hLeads hTaken
    have hLast : last ∈ taken :=
      List.idxOf_lt_length_iff.mp
        (hBefore.trans (List.idxOf_lt_length_of_mem hTaken))
    have hBack :=
      (hWalking.idxOf_le_of_reaches hReaches hLast).2
    omega
  · have hNone :=
      hWalking.extra_of_free (by simpa using hTaken)
    omega

/- What is never taken waits for a root. -/
theorem not_mem_iff
    (hWalking : adjacency.Walking extra taken [] degrees)
    (hCounts : adjacency.Counts extra)
    {place : Nat} :
    place < adjacency.size ∧ place ∉ taken ↔
      adjacency.WaitsForEver extra place := by
  constructor
  · intro hPlace
    refine
      exists_root
        (fun other =>
          other < adjacency.size ∧ other ∉ taken)
        (fun _ hOther => hOther.1) ?_ hPlace
    rintro other ⟨hOther, hNew⟩
    have hFree := hWalking.free_iff other
    rw [List.append_nil] at hFree
    have hDegree : degrees.getD other 0 ≠ 0 :=
      fun hZero => hNew (hFree.mpr ⟨hOther, hZero⟩)
    have hBalance := hWalking.balance other hOther
    by_cases hExtra : 0 < extra other
    · exact Or.inl hExtra
    · rcases pos_arrivals_iff.mp
          (show 0 < adjacency.arrivals
            (adjacency.remaining taken) other by omega) with
        ⟨source, hSource, hLeads⟩
      exact Or.inr
        ⟨source, mem_remaining.mp hSource, hLeads⟩
  · rintro ⟨root, hRoot, hReaches⟩
    constructor
    · rcases Relation.ReflTransGen.cases_tail hReaches with
        hSame | ⟨_, _, hLeads⟩
      · exact hSame ▸ hCounts.root_lt hRoot
      · exact hCounts.target_lt hLeads
    · intro hTaken
      exact hWalking.not_mem_of_isRoot hRoot
        (hWalking.idxOf_le_of_reaches hReaches hTaken).1

/- Only places are taken, and each of them once. -/
theorem subperm_range
    (hWalking : adjacency.Walking extra taken [] degrees) :
    taken.Subperm (List.range adjacency.size) := by
  have hNodup : taken.Nodup := by simpa using hWalking.nodup
  apply hNodup.subperm
  intro place hTaken
  have hPlace :=
    (hWalking.free_iff place).mp (by simpa using hTaken)
  exact List.mem_range.mpr hPlace.1

/- All places were taken if none of them is left out. -/
theorem length_eq_iff
    (hWalking : adjacency.Walking extra taken [] degrees) :
    taken.length = adjacency.size ↔
      taken.Perm (List.range adjacency.size) := by
  constructor
  · intro hLength
    exact hWalking.subperm_range.perm_of_length_le
      (by simp [hLength])
  · intro hPerm
    simpa using hPerm.length_eq

end Walking

------------------------------------------------------------
-- Outcomes
------------------------------------------------------------

/- The places that a table has taken when its walk ends. -/
def walked (adjacency : Adjacency) : List Nat × List Nat :=
  walk adjacency.targets
    (placesWhere (· == 0) adjacency.inDegree)
    adjacency.inDegree

/- The invariant at the end of the walk. -/
theorem Counts.walking_walked
    (hCounts : adjacency.Counts extra) :
    adjacency.Walking extra adjacency.walked.1 []
      adjacency.walked.2 :=
  (Walking.start hCounts).walk hCounts

/- The outcome is read off the walk. -/
theorem order_eq (adjacency : Adjacency) :
    adjacency.order =
      if adjacency.walked.1.length = adjacency.size then
        .ok adjacency.walked.1
      else
        .error (placesWhere (0 < ·) adjacency.walked.2) :=
  rfl

/- The places in an order come from the walk. -/
theorem order_eq_ok_iff
    (hCounts : adjacency.Counts extra)
    {places : List Nat} :
    adjacency.order = .ok places ↔
      places = adjacency.walked.1 ∧
        places.Perm (List.range adjacency.size) := by
  have hLength := hCounts.walking_walked.length_eq_iff
  rw [order_eq]
  split
  · next hAll =>
      rw [Except.ok.injEq, eq_comm]
      constructor
      · rintro rfl
        exact ⟨rfl, hLength.mp hAll⟩
      · rintro ⟨rfl, -⟩
        rfl
  · next hSome =>
      simp only [reduceCtorEq, false_iff]
      rintro ⟨rfl, hPerm⟩
      exact hSome (hLength.mpr hPerm)

/- An order is one. -/
theorem order_eq_ok
    (hCounts : adjacency.Counts extra)
    {places : List Nat}
    (hOrder : adjacency.order = .ok places) :
    adjacency.IsOrder places := by
  rcases (order_eq_ok_iff hCounts).mp hOrder with ⟨rfl, hPerm⟩
  refine ⟨hPerm, ?_⟩
  intro source target hLeads
  apply hCounts.walking_walked.ordered hLeads
  exact hPerm.mem_iff.mpr
    (List.mem_range.mpr (hCounts.target_lt hLeads))

/- There is an order if there are no roots. -/
theorem exists_order_iff
    (hCounts : adjacency.Counts extra) :
    (∃ places, adjacency.order = .ok places) ↔
      (∀ place < adjacency.size, extra place = 0) ∧
        adjacency.IsAcyclic := by
  have hWalking := hCounts.walking_walked
  rw [← forall_not_isRoot_iff]
  constructor
  · rintro ⟨places, hOrder⟩ root hRoot
    rcases (order_eq_ok_iff hCounts).mp hOrder with ⟨rfl, hPerm⟩
    apply hWalking.not_mem_of_isRoot hRoot
    exact hPerm.mem_iff.mpr
      (List.mem_range.mpr (hCounts.root_lt hRoot))
  · intro hNone
    have hAll :
        List.range adjacency.size ⊆ adjacency.walked.1 := by
      intro place hPlace
      by_contra hNew
      rcases (hWalking.not_mem_iff hCounts).mp
          ⟨List.mem_range.mp hPlace, hNew⟩ with
        ⟨root, hRoot, -⟩
      exact hNone root hRoot
    have hPerm :
        adjacency.walked.1.Perm (List.range adjacency.size) :=
      hWalking.subperm_range.antisymm
        (List.nodup_range.subperm hAll)
    exact ⟨_, (order_eq_ok_iff hCounts).mpr ⟨rfl, hPerm⟩⟩

/- Where there is no order, the places that wait are told. -/
theorem order_eq_error
    (hCounts : adjacency.Counts extra)
    {waiting : List Nat}
    (hOrder : adjacency.order = .error waiting) :
    waiting.Pairwise (· < ·) ∧
      ∀ place,
        place ∈ waiting ↔
          adjacency.WaitsForEver extra place := by
  have hWalking := hCounts.walking_walked
  have hWaiting :
      waiting = placesWhere (0 < ·) adjacency.walked.2 := by
    rw [order_eq] at hOrder
    split at hOrder
    · simp at hOrder
    · exact (Except.error.inj hOrder).symm
  subst hWaiting
  constructor
  · exact List.pairwise_lt_range.filter _
  · intro place
    rw [← hWalking.not_mem_iff hCounts]
    have hFree := hWalking.free_iff place
    rw [List.append_nil] at hFree
    rw [hFree, placesWhere, List.mem_filter, List.mem_range,
      decide_eq_true_eq, hWalking.length_degrees]
    constructor
    · rintro ⟨hPlace, hPos⟩
      exact ⟨hPlace, fun hZero => by omega⟩
    · rintro ⟨hPlace, hNotFree⟩
      refine ⟨hPlace, Nat.pos_of_ne_zero ?_⟩
      exact fun hZero => hNotFree ⟨hPlace, hZero⟩

end Adjacency

------------------------------------------------------------
-- Orders of Graphs
------------------------------------------------------------

namespace Graph

variable {graph : Graph}

/- An order of a graph is one of its table. -/
theorem order_eq_ok_iff
    {places : List Nat} :
    graph.order = .ok places ↔
      graph.adjacency.order = .ok places := by
  unfold order
  cases graph.adjacency.order <;> simp

/- A graph without an order tells the keys that wait. -/
theorem order_eq_error_iff
    {error : CompileError} :
    graph.order = .error error ↔
      ∃ waiting,
        graph.adjacency.order = .error waiting ∧
          error =
            .cyclicGraph
              ((graph.idsAt waiting).map NodeId.text) := by
  unfold order
  cases graph.adjacency.order with
  | ok places => simp
  | error waiting => simp [eq_comm]

/- What leads to each place comes before it. -/
def Ready (graph : Graph) : (taken places : List Nat) → Prop
  | _, [] => True
  | taken, place :: rest =>
      (∀ input ∈ graph.inputsOf place, input ∈ taken) ∧
        Ready graph (taken ++ [place]) rest

/- The inputs of a place lead to it. -/
theorem leads_of_mem_inputsOf
    (hClosed : graph.IsClosed)
    {place input : Nat}
    (hInput : input ∈ graph.inputsOf place) :
    graph.adjacency.Leads input place := by
  rcases List.mem_map.mp hInput with ⟨edge, hEdge, hSource⟩
  rw [List.mem_filter, beq_iff_eq] at hEdge
  exact (leads_adjacency_iff hClosed).mpr
    ⟨edge, hEdge.1, hSource, hEdge.2⟩

/- What leads to a place comes before it in an order. -/
theorem ready_of_isOrder
    (hClosed : graph.IsClosed)
    {taken places : List Nat}
    (hOrder : graph.adjacency.IsOrder (taken ++ places)) :
    graph.Ready taken places := by
  induction places generalizing taken with
  | nil => exact True.intro
  | cons place rest ih =>
      constructor
      · intro input hInput
        have hBefore :=
          hOrder.forward (leads_of_mem_inputsOf hClosed hInput)
        have hNodup : (taken ++ place :: rest).Nodup :=
          hOrder.perm.nodup_iff.mpr List.nodup_range
        have hNew : place ∉ taken := fun hTaken =>
          List.disjoint_of_nodup_append hNodup hTaken
            List.mem_cons_self
        by_contra hLate
        rw [List.idxOf_append_of_notMem hNew,
          List.idxOf_append_of_notMem hLate,
          List.idxOf_cons_self] at hBefore
        omega
      · apply ih
        simpa using hOrder

/- The inputs of a place are taken before it is. -/
theorem Ready.mem_of_mem_inputsOf
    {taken before after : List Nat}
    {place : Nat}
    (hReady : graph.Ready taken (before ++ place :: after))
    {input : Nat}
    (hInput : input ∈ graph.inputsOf place) :
    input ∈ taken ++ before := by
  induction before generalizing taken with
  | nil =>
      rw [List.append_nil]
      exact hReady.1 input hInput
  | cons first before ih =>
      rw [List.append_cons]
      exact ih hReady.2

/- Every place of the graph has a key. -/
theorem map_some_idsAt
    {places : List Nat}
    (hPlaces : ∀ place ∈ places, place < graph.size) :
    (graph.idsAt places).map some =
      places.map fun place => graph.nodes[place]?.map Node.id := by
  induction places with
  | nil => rfl
  | cons place places ih =>
      rw [List.forall_mem_cons] at hPlaces
      have hPlace : place < graph.nodes.length := hPlaces.1
      have hNode :
          graph.nodes[place]? = some graph.nodes[place] :=
        List.getElem?_eq_getElem hPlace
      have hRest := ih hPlaces.2
      simp only [idsAt, List.filterMap_cons, hNode,
        Option.map_some, List.map_cons] at hRest ⊢
      rw [hRest]

/-
  Ordering a table never takes away an edge that is not there.
  It succeeds if there are no cycles and no edges from
  nowhere, and else tells exactly what waits for ever. Graphs
  are the case without edges from nowhere.
-/
theorem order_sound_and_complete :
    (∀ (adjacency : Adjacency) (extra : Nat → Nat),
      adjacency.Counts extra →
        Adjacency.WalksSafely adjacency.targets
            (Adjacency.placesWhere (· == 0)
              adjacency.inDegree)
            adjacency.inDegree ∧
          ((∃ places, adjacency.order = .ok places) ↔
            (∀ place < adjacency.size, extra place = 0) ∧
              adjacency.IsAcyclic) ∧
          (∀ places,
            adjacency.order = .ok places →
              adjacency.IsOrder places) ∧
          ∀ waiting,
            adjacency.order = .error waiting →
              waiting.Pairwise (· < ·) ∧
                ∀ place,
                  place ∈ waiting ↔
                    adjacency.WaitsForEver extra place) ∧
      ∀ (description : Description) (graph : Graph),
        ofDescription description = .ok graph →
          graph.adjacency.Counts (fun _ => 0) ∧
            (∀ source target,
              graph.adjacency.Leads source target ↔
                ∃ edge ∈ graph.edges,
                  edge.source = source ∧
                    edge.target = target) ∧
            (∀ places,
              graph.order = .ok places ↔
                graph.adjacency.order = .ok places) ∧
            ∀ error,
              graph.order = .error error ↔
                ∃ waiting ids,
                  graph.adjacency.order = .error waiting ∧
                    ids.map some =
                      waiting.map (fun place =>
                        graph.nodes[place]?.map fun node =>
                          node.id.text) ∧
                    error = .cyclicGraph ids := by
  constructor
  · intro adjacency extra hCounts
    refine ⟨?_, ?_, ?_, ?_⟩
    · exact (Adjacency.Walking.start hCounts).walksSafely
        hCounts
    · exact Adjacency.exists_order_iff hCounts
    · intro places hOrder
      exact Adjacency.order_eq_ok hCounts hOrder
    · intro waiting hOrder
      exact Adjacency.order_eq_error hCounts hOrder
  · intro description graph hBuilt
    have hClosed := isClosed_of_ofDescription hBuilt
    have hCounts := counts_adjacency hClosed
    refine ⟨hCounts, ?_, ?_, ?_⟩
    · intro source target
      exact leads_adjacency_iff hClosed
    · intro places
      exact order_eq_ok_iff
    · intro error
      -- A place that waits is one of the graph, and has a key.
      have hKeys :
          ∀ waiting,
            graph.adjacency.order = .error waiting →
              ((graph.idsAt waiting).map NodeId.text).map some =
                waiting.map fun place =>
                  graph.nodes[place]?.map fun node =>
                    node.id.text := by
        intro waiting hOrder
        have hWaiting :=
          (Adjacency.order_eq_error hCounts hOrder).2
        have hPlaces :
            ∀ place ∈ waiting, place < graph.size := by
          intro place hPlace
          have hLt :=
            ((hCounts.walking_walked.not_mem_iff hCounts).mpr
              ((hWaiting place).mp hPlace)).1
          simpa [adjacency, Adjacency.size, places] using hLt
        have hIds := map_some_idsAt hPlaces
        have hTexts :=
          congrArg (List.map (Option.map NodeId.text)) hIds
        simpa [Function.comp_def] using hTexts
      rw [order_eq_error_iff]
      constructor
      · rintro ⟨waiting, hOrder, rfl⟩
        exact ⟨waiting, _, hOrder, hKeys waiting hOrder, rfl⟩
      · rintro ⟨waiting, ids, hOrder, hIds, rfl⟩
        refine ⟨waiting, hOrder, ?_⟩
        have hSame := hIds.trans (hKeys waiting hOrder).symm
        rw [List.map_injective_iff.mpr
          (Option.some_injective String) hSame]

/- A loop, an edge from nowhere, and what comes behind. -/
theorem order_of_looped_table :
    let table :=
      (Adjacency.ofTargets [[1], [2], [1], [0, 4], []]).withExtra
        [0, 0, 0, 0, 1]
    let extra := fun place => [0, 0, 0, 0, 1].getD place 0
    let looped :=
      (Description.empty.putNode ⟨"a"⟩ "Foo" .empty).connect
        ⟨"a"⟩ ⟨"a"⟩
    let graph : Graph :=
      ⟨nodesOf looped, [⟨⟨"conn1"⟩, 0, 0⟩]⟩
    table.Counts extra ∧
      table.order = .error [1, 2, 4] ∧
      (∀ place,
        place ∈ [1, 2, 4] ↔ table.WaitsForEver extra place) ∧
      ofDescription looped = .ok graph ∧
      graph.order = .error (.cyclicGraph ["a"]) := by
  intro table extra looped graph
  have hCounts : table.Counts extra :=
    Adjacency.counts_ofTargets (by decide) _
  have hOrder : table.order = .error [1, 2, 4] := by
    decide +kernel
  have hBuilt : ofDescription looped = .ok graph := rfl
  have hTable := order_sound_and_complete.1 table extra hCounts
  have hGraph := order_sound_and_complete.2 looped graph hBuilt
  refine ⟨hCounts, hOrder, ?_, hBuilt, ?_⟩
  · exact (hTable.2.2.2 _ hOrder).2
  · exact (hGraph.2.2.2 _).mpr
      ⟨[0], ["a"], by decide +kernel, rfl, rfl⟩

end Graph

end PipelineScript
