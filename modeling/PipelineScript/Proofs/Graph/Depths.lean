import PipelineScript.Proofs.Graph.Ties
import PipelineScript.Proofs.Graph.Waiting
import Mathlib.Data.Nat.SuccPred

/-
  How deep nodes lie, and that orders go from the shallow to
  the deep.

  The depth of a node is the length of the longest way along
  connections that ends at it. No depth is ever computed: a
  node that comes later in an order has its last edge from a
  source that comes later, and so every way that ends at a
  node can be matched by one that ends at any later node.

  Key definitions include:
    * `WayTo`
    * `IsDepth`

  Key theorems include:
    * `Adjacency.IsSettled.wayTo_of_le`
    * `Adjacency.IsSettled.le_idxOf_of_wayTo`
    * `Graph.wayTo_adjacency_iff`
    * `Graph.order_is_layered`
-/

namespace PipelineScript

------------------------------------------------------------
-- Ways and Depths
------------------------------------------------------------

section Ways

variable {α β : Type}

/- A way of some number of steps ends at an item. -/
inductive WayTo (leads : α → α → Prop) : Nat → α → Prop where
  | start (item : α) : WayTo leads 0 item
  | step
      {count : Nat}
      {source target : α}
      (hWay : WayTo leads count source)
      (hLeads : leads source target) :
      WayTo leads (count + 1) target

/- The longest way to an item has as many steps. -/
def IsDepth
    (leads : α → α → Prop)
    (item : α)
    (depth : Nat) : Prop :=
  IsGreatest {count | WayTo leads count item} depth

/- Ways are mapped step by step. -/
theorem WayTo.map
    {leads : α → α → Prop}
    {leads' : β → β → Prop}
    {f : α → β}
    (hStep : ∀ {first second},
      leads first second → leads' (f first) (f second))
    {count : Nat}
    {item : α}
    (hWay : WayTo leads count item) :
    WayTo leads' count (f item) := by
  induction hWay with
  | start item => exact .start _
  | step _ hLeads ih => exact .step ih (hStep hLeads)

end Ways

------------------------------------------------------------
-- Ways Between Places
------------------------------------------------------------

namespace Adjacency

namespace IsSettled

variable {adjacency : Adjacency} {places : List Nat}

/- A way takes no more steps than places were taken. -/
theorem le_idxOf_of_wayTo
    (hSettled : adjacency.IsSettled places)
    (hCounts : adjacency.Counts fun _ => 0)
    (hAcyclic : adjacency.IsAcyclic)
    {count place : Nat}
    (hWay : WayTo adjacency.Leads count place) :
    count ≤ places.idxOf place := by
  induction hWay with
  | start place => exact Nat.zero_le _
  | step _ hLeads ih =>
      have hBefore := hSettled.forward hCounts hAcyclic hLeads
      omega

/-
  What ends a way of some length comes before all that ends no
  such way. The induction is on the way: its last source comes
  no later than the source of the last edge to the other
  place.
-/
theorem wayTo_of_le
    (hSettled : adjacency.IsSettled places)
    (hCounts : adjacency.Counts fun _ => 0)
    {count first second : Nat}
    (hSecond : second < adjacency.size)
    (hLe : places.idxOf first ≤ places.idxOf second)
    (hWay : WayTo adjacency.Leads count first) :
    WayTo adjacency.Leads count second := by
  induction hWay generalizing second with
  | start first => exact .start second
  | @step count source first _ hLeads ih =>
      have hFirst := hCounts.target_lt hLeads
      have hWaits : ¬ adjacency.IsFree first := by
        rw [hCounts.isFree_iff hFirst]
        intro hNone
        exact hNone source hLeads
      have hSecondWaits : ¬ adjacency.IsFree second := by
        intro hFree
        have hBefore :=
          hSettled.free_first hFree hFirst hWaits
        omega
      rcases hCounts.exists_leads hSecond hSecondWaits with
        ⟨other, hOther⟩
      rcases exists_isLastEdge places hLeads with ⟨edge, hEdge⟩
      rcases exists_isLastEdge places hOther with
        ⟨later, hLater⟩
      have hOrder : edge ≤ later := by
        by_contra hBack
        have hBefore :=
          hSettled.waiting_sorted hLater hEdge
            (lt_of_not_ge hBack)
        omega
      rcases exists_edge_of_leads places hLeads with
        ⟨index, hListed⟩
      rcases hLater.1 with ⟨last, index', hLast, rfl⟩
      have hSource :=
        Prod.Lex.monotone_fst _ _ ((hEdge.2 hListed).trans hOrder)
      have hLastLeads := leads_of_getElem? hLast
      exact .step (ih (hCounts.source_lt hLastLeads) hSource)
        hLastLeads

end IsSettled

end Adjacency

------------------------------------------------------------
-- Ways Between Nodes
------------------------------------------------------------

namespace Graph

variable {description : Description} {graph : Graph}

/- The ways to a place are those to the key in it. -/
theorem wayTo_adjacency_iff
    (hBuilt : ofDescription description = .ok graph)
    {place : Nat}
    {id : NodeId}
    (hPlace : description.nodes.keys[place]? = some id)
    {count : Nat} :
    WayTo graph.adjacency.Leads count place ↔
      WayTo description.Leads count id := by
  have hKeys : description.nodes.keys.Nodup :=
    description.nodes.distinct
  rcases List.getElem?_eq_some_iff.mp hPlace with ⟨hLt, hId⟩
  constructor
  · intro hWay
    have hMapped := hWay.map fun hLeads =>
      leads_getD_keys hBuilt hLeads
    simpa [hPlace] using hMapped
  · intro hWay
    have hMapped := hWay.map fun hLeads =>
      leads_adjacency_of_leads hBuilt hLeads
    rwa [← hId, hKeys.idxOf_getElem] at hMapped

/- Where there are no cycles, every node has a depth. -/
theorem exists_isDepth
    (hBuilt : ofDescription description = .ok graph)
    (hAcyclic : description.IsAcyclic)
    {id : NodeId}
    (hId : id ∈ description.nodes.keys) :
    ∃ depth, IsDepth description.Leads id depth := by
  have hCounts :=
    counts_adjacency (isClosed_of_ofDescription hBuilt)
  have hNoCycle := (isAcyclic_adjacency_iff hBuilt).mpr hAcyclic
  rcases (Adjacency.exists_order_iff hCounts).mpr
      ⟨fun _ _ => rfl, hNoCycle⟩ with
    ⟨places, hOrder⟩
  have hSettled := Adjacency.isSettled_of_order hCounts hOrder
  have hPlace := List.getElem?_idxOf hId
  have hBound :
      BddAbove {count | WayTo description.Leads count id} := by
    refine ⟨places.idxOf (description.nodes.keys.idxOf id), ?_⟩
    intro count hWay
    exact hSettled.le_idxOf_of_wayTo hCounts hNoCycle
      ((wayTo_adjacency_iff hBuilt hPlace).mpr hWay)
  exact hBound.exists_isGreatest_of_nonempty ⟨0, .start id⟩

/- So all of them have depths at once. -/
theorem exists_depths
    (hBuilt : ofDescription description = .ok graph)
    (hAcyclic : description.IsAcyclic) :
    ∃ depth : NodeId → Nat,
      ∀ id ∈ description.nodes.keys,
        IsDepth description.Leads id (depth id) := by
  have hDepths :
      ∀ id, ∃ depth,
        id ∈ description.nodes.keys →
          IsDepth description.Leads id depth := by
    intro id
    by_cases hId : id ∈ description.nodes.keys
    · rcases exists_isDepth hBuilt hAcyclic hId with
        ⟨depth, hDepth⟩
      exact ⟨depth, fun _ => hDepth⟩
    · exact ⟨0, fun hMem => absurd hMem hId⟩
  choose depth hDepth using hDepths
  exact ⟨depth, hDepth⟩

/- Nodes in order are sorted by their depths. -/
theorem pairwise_idsAt
    (hBuilt : ofDescription description = .ok graph)
    {places : List Nat}
    (hSettled : graph.adjacency.IsSettled places)
    {depth : NodeId → Nat}
    (hDepth :
      ∀ id ∈ description.nodes.keys,
        IsDepth description.Leads id (depth id)) :
    (graph.idsAt places).Pairwise fun first second =>
      depth first ≤ depth second := by
  have hCounts :=
    counts_adjacency (isClosed_of_ofDescription hBuilt)
  rw [idsAt_eq_filterMap_keys hBuilt, List.pairwise_filterMap,
    List.pairwise_iff_getElem]
  intro place later hPlace hLater hLt id hId id' hId'
  have hLe :
      places.idxOf places[place] ≤
        places.idxOf places[later] := by
    rw [hSettled.nodup.idxOf_getElem,
      hSettled.nodup.idxOf_getElem]
    exact hLt.le
  have hInside : places[later] < graph.adjacency.size :=
    List.mem_range.mp
      (hSettled.perm.mem_iff.mp (List.getElem_mem hLater))
  have hWay :=
    (wayTo_adjacency_iff hBuilt hId).mpr
      (hDepth id (List.mem_of_getElem? hId)).1
  apply (hDepth id' (List.mem_of_getElem? hId')).2
  exact (wayTo_adjacency_iff hBuilt hId').mp
    (hSettled.wayTo_of_le hCounts hInside hLe hWay)

/-
  An order goes from the shallow to the deep, whether or not
  nodes are connected: along it no depth is less than one
  before, and so all nodes of one depth come before all that
  lie deeper.
-/
theorem order_is_layered
    (hLinked : description.IsLinked)
    (hAcyclic : description.IsAcyclic) :
    ∃ graph places,
      ofDescription description = .ok graph ∧
        graph.order = .ok places ∧
        (graph.idsAt places).Perm description.nodes.keys ∧
        ∃ depth : NodeId → Nat,
          (∀ id ∈ description.nodes.keys,
            IsDepth description.Leads id (depth id)) ∧
          ((graph.idsAt places).map depth).Pairwise
            (· ≤ ·) ∧
          ∀ first ∈ description.nodes.keys,
            ∀ second ∈ description.nodes.keys,
              depth first < depth second →
                (graph.idsAt places).idxOf first <
                  (graph.idsAt places).idxOf second := by
  rcases exists_ofDescription_iff_isLinked.mpr hLinked with
    ⟨graph, hBuilt⟩
  rcases (exists_order_iff_isAcyclic hBuilt).mpr hAcyclic with
    ⟨places, hOrder⟩
  have hCounts :=
    counts_adjacency (isClosed_of_ofDescription hBuilt)
  have hSettled :=
    Adjacency.isSettled_of_order hCounts
      (order_eq_ok_iff.mp hOrder)
  have hPerm : places.Perm (List.range graph.size) := by
    simpa [adjacency, Adjacency.size, Graph.places] using
      hSettled.perm
  have hIds := perm_idsAt hBuilt hPerm
  rcases exists_depths hBuilt hAcyclic with ⟨depth, hDepth⟩
  have hSorted := pairwise_idsAt hBuilt hSettled hDepth
  refine ⟨graph, places, hBuilt, hOrder, hIds, depth, hDepth,
    List.pairwise_map.mpr hSorted, ?_⟩
  intro first hFirst second hSecond hLt
  refine idxOf_lt_of_pairwise hSorted
    (hIds.mem_iff.mpr hFirst) (hIds.mem_iff.mpr hSecond) ?_
    (Nat.not_le.mpr hLt)
  rintro rfl
  exact Nat.lt_irrefl _ hLt

/-
  A node alone comes before all that lie deeper, although it
  was described behind them.
-/
theorem order_of_late_source :
    let description :=
      ((((((Description.empty.putNode ⟨"a"⟩ "Foo" .empty).putNode
        ⟨"b"⟩ "Foo" .empty).putNode ⟨"c"⟩ "Foo" .empty).putNode
        ⟨"d"⟩ "Foo" .empty).connect ⟨"a"⟩ ⟨"c"⟩).connect
        ⟨"a"⟩ ⟨"b"⟩).connect ⟨"b"⟩ ⟨"c"⟩
    let ids : List NodeId := [⟨"a"⟩, ⟨"d"⟩, ⟨"b"⟩, ⟨"c"⟩]
    description.IsLinked ∧ description.IsAcyclic ∧
      ∃ depth : NodeId → Nat,
        (∀ id ∈ description.nodes.keys,
          IsDepth description.Leads id (depth id)) ∧
        (ids.map depth).Pairwise (· ≤ ·) := by
  intro description ids
  let graph : Graph :=
    ⟨nodesOf description,
      [⟨⟨"conn1"⟩, 0, 2⟩, ⟨⟨"conn2"⟩, 0, 1⟩,
        ⟨⟨"conn3"⟩, 1, 2⟩]⟩
  have hBuilt : ofDescription description = .ok graph := rfl
  have hOrder : graph.order = .ok [0, 3, 1, 2] := by
    decide +kernel
  have hLinked : description.IsLinked :=
    exists_ofDescription_iff_isLinked.mp ⟨graph, hBuilt⟩
  have hAcyclic : description.IsAcyclic :=
    (exists_order_iff_isAcyclic hBuilt).mp ⟨_, hOrder⟩
  rcases order_is_layered hLinked hAcyclic with
    ⟨graph', places, hBuilt', hOrder', -, depth, hDepth,
      hSorted, -⟩
  have hSame : graph = graph' :=
    Except.ok.inj (hBuilt.symm.trans hBuilt')
  subst hSame
  have hPlaces : [0, 3, 1, 2] = places :=
    Except.ok.inj (hOrder.symm.trans hOrder')
  subst hPlaces
  exact ⟨hLinked, hAcyclic, depth, hDepth, hSorted⟩

end Graph

end PipelineScript
