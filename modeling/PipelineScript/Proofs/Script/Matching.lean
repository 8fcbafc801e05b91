import PipelineScript.Proofs.Graph.Tables
import PipelineScript.Script.Assembly

/-
  Graphs that match: the same keys stand in the same places,
  and every place has the same neighbours in the same order.

  How the edges are listed is seen through the neighbours of
  places only. So graphs that match have the same order, and
  blocks are made of both in the same way.

  Key definitions include:
    * `Graph.Matches`

  Key theorems include:
    * `Graph.Matches.node_cases`
    * `Graph.Matches.order_eq`
    * `Graph.Matches.inputNames_eq`
    * `Graph.Matches.generate_eq`
-/

namespace PipelineScript

namespace Graph

variable {graph other : Graph}

------------------------------------------------------------
-- Graphs That Match
------------------------------------------------------------

/-
  The keys of the nodes are the same place by place, and so
  are the neighbours of every place.
-/
structure Matches (graph other : Graph) : Prop where
  ids_eq : graph.nodes.map Node.id = other.nodes.map Node.id
  inputsOf_eq : graph.inputsOf = other.inputsOf
  outputsOf_eq : graph.outputsOf = other.outputsOf

namespace Matches

/- There are as many places. -/
theorem size_eq (hMatch : graph.Matches other) :
    graph.size = other.size := by
  simpa [size] using congrArg List.length hMatch.ids_eq

/- A place has the same key. -/
theorem id_eq
    (hMatch : graph.Matches other)
    (place : Nat) :
    graph.nodes[place]?.map Node.id =
      other.nodes[place]?.map Node.id := by
  rw [← List.getElem?_map, ← List.getElem?_map, hMatch.ids_eq]

/- A place has no node in both, or nodes with the same key. -/
theorem node_cases
    (hMatch : graph.Matches other)
    (place : Nat) :
    (graph.nodes[place]? = none ∧
        other.nodes[place]? = none) ∨
      ∃ node copy,
        graph.nodes[place]? = some node ∧
          other.nodes[place]? = some copy ∧
          node.id = copy.id := by
  have hId := hMatch.id_eq place
  cases hNode : graph.nodes[place]? with
  | none =>
      rw [hNode, Option.map_none, eq_comm,
        Option.map_eq_none_iff] at hId
      exact Or.inl ⟨rfl, hId⟩
  | some node =>
      rw [hNode, Option.map_some, eq_comm,
        Option.map_eq_some_iff] at hId
      rcases hId with ⟨copy, hCopy, hId⟩
      exact Or.inr ⟨node, copy, rfl, hCopy, hId.symm⟩

/- Places have the same keys. -/
theorem idsAt_eq (hMatch : graph.Matches other) :
    graph.idsAt = other.idsAt := by
  funext places
  exact List.filterMap_congr fun place _ => hMatch.id_eq place

/- The sorter sees the same table. -/
theorem adjacency_eq (hMatch : graph.Matches other) :
    graph.adjacency = other.adjacency := by
  rw [adjacency, adjacency, places, places, hMatch.size_eq,
    hMatch.inputsOf_eq, hMatch.outputsOf_eq]

/- The order is the same, or the same places wait for ever. -/
theorem order_eq (hMatch : graph.Matches other) :
    graph.order = other.order := by
  rw [order, order, hMatch.adjacency_eq, hMatch.idsAt_eq]

/- As many places have no input. -/
theorem sourceCount_eq (hMatch : graph.Matches other) :
    graph.sourceCount = other.sourceCount := by
  rw [sourceCount, sourceCount, places, places,
    hMatch.size_eq, hMatch.inputsOf_eq]

/- As many places have no output. -/
theorem sinkCount_eq (hMatch : graph.Matches other) :
    graph.sinkCount = other.sinkCount := by
  rw [sinkCount_eq_countP, sinkCount_eq_countP, places, places,
    hMatch.size_eq, hMatch.outputsOf_eq]

end Matches

end Graph

------------------------------------------------------------
-- Making Blocks of Graphs That Match
------------------------------------------------------------

namespace Graph.Matches

open Assembly

variable {settings : Settings} {registry : Registry}
variable {graph other : Graph}

/- Names are missed for the same inputs. -/
theorem inputName_eq
    (hMatch : graph.Matches other)
    (names : NameTable)
    {node another : Node}
    (hId : node.id = another.id) :
    inputName graph names node =
      inputName other names another := by
  funext place
  unfold inputName
  rw [hId]
  rcases hMatch.node_cases place with
    ⟨hNone, hOther⟩ | ⟨input, copy, hInput, hCopy, hIds⟩
  · simp only [hNone, hOther]
  · simp only [hInput, hCopy, hIds]

/- The names of inputs are the same. -/
theorem inputNames_eq
    (hMatch : graph.Matches other)
    (names : NameTable)
    {node another : Node}
    (hId : node.id = another.id)
    (places : List Nat) :
    inputNames graph names node places =
      inputNames other names another places := by
  induction places with
  | nil => rfl
  | cons place places ih =>
      rw [inputNames, inputNames, hMatch.inputName_eq names hId,
        ih]

/- The same node is visited in the same way. -/
theorem visit_eq (hMatch : graph.Matches other) :
    visit settings registry graph =
      visit settings registry other := by
  funext progress place node
  unfold visit
  simp only [hMatch.inputNames_eq _ rfl, hMatch.inputsOf_eq]

/- The same nodes are visited in the same way. -/
theorem visitAll_eq
    (hMatch : graph.Matches other)
    (hNodes : graph.nodes = other.nodes)
    (progress : Progress)
    (places : List Nat) :
    visitAll settings registry graph progress places =
      visitAll settings registry other progress places := by
  induction places generalizing progress with
  | nil => rfl
  | cons place places ih =>
      simp only [visitAll, hNodes, hMatch.visit_eq, ih]

/- The same blocks are made of the same nodes. -/
theorem generate_eq
    (hMatch : graph.Matches other)
    (hNodes : graph.nodes = other.nodes) :
    generate settings registry graph =
      generate settings registry other := by
  funext places
  unfold generate
  simp only [hMatch.visitAll_eq hNodes]

/- The same progress becomes the same script. -/
theorem scriptOf_eq
    {description another : Description}
    (hMatch : graph.Matches other)
    (hNodes : graph.nodes = other.nodes)
    (hName : description.pipelineId = another.pipelineId)
    (hRemarks : description.remarks = another.remarks) :
    scriptOf settings description graph =
      scriptOf settings another other := by
  funext places progress
  unfold scriptOf
  rw [hName, hRemarks, hNodes, hMatch.idsAt_eq,
    hMatch.size_eq, hMatch.sourceCount_eq,
    hMatch.sinkCount_eq]

end Graph.Matches

end PipelineScript
