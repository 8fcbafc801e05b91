import PipelineScript.Description.Description
import PipelineScript.Graph.Order

/-
  Graphs of nodes whose connections were all resolved.

  Nodes have places, counted from zero in the order they were
  described, and edges name their ends by place.

  Places are numbers of 32 bits, and a description with more
  nodes than there are places is refused. Apart from `build`,
  which refuses it, places are taken to have no bound: what is
  said of graphs, and of scripts made from them, is said of
  descriptions with at most `placeLimit` nodes.

  Key definitions include:
    * `Graph`
    * `Graph.ofDescription`
    * `Graph.build`
    * `Graph.inputsOf`
    * `Graph.adjacency`
    * `Graph.order`
-/

namespace PipelineScript

/- A node with its key. -/
structure Node where
  id : NodeId
  kind : NodeKind
  options : Options
deriving Repr

/- A connection between two places. -/
structure Edge where
  id : ConnectionId
  source : Nat
  target : Nat
deriving DecidableEq, Repr

/- Nodes in their places, and edges between them. -/
structure Graph where
  nodes : List Node
  edges : List Edge
deriving Repr

namespace Graph

------------------------------------------------------------
-- Places
------------------------------------------------------------

/- How many nodes there are. -/
def size (graph : Graph) : Nat :=
  graph.nodes.length

/- The place of the node under a key. -/
def indexOf?
    (graph : Graph)
    (id : NodeId) : Option Nat :=
  graph.nodes.findIdx? (·.id == id)

/- The keys of the nodes in the given places. -/
def idsAt
    (graph : Graph)
    (places : List Nat) : List NodeId :=
  places.filterMap fun place => graph.nodes[place]?.map Node.id

------------------------------------------------------------
-- Resolving Descriptions
------------------------------------------------------------

/- The nodes of a description, in its order. -/
def nodesOf (description : Description) : List Node :=
  description.nodes.entries.map fun (id, node) =>
    ⟨id, node.kind, node.options⟩

/- The place that an end of a connection names. -/
def resolve
    (keys : List NodeId)
    (connection : ConnectionId)
    (endpoint : Endpoint)
    (id : NodeId) : Except CompileError Nat :=
  match keys.findIdx? (· == id) with
  | some place => .ok place
  | none =>
      .error (.validation
        (.danglingConnection connection endpoint id))

/- The edge of a connection. Its source is looked up first. -/
def edgeOf
    (keys : List NodeId)
    (id : ConnectionId)
    (connection : Connection) : Except CompileError Edge := do
  let source ← resolve keys id .source connection.source
  let target ← resolve keys id .target connection.target
  .ok ⟨id, source, target⟩

/- The edges of connections, up to one that cannot be. -/
def edgesOf
    (keys : List NodeId) :
    List (ConnectionId × Connection) →
      Except CompileError (List Edge)
  | [] => .ok []
  | (id, connection) :: rest => do
      let edge ← edgeOf keys id connection
      let edges ← edgesOf keys rest
      .ok (edge :: edges)

/- The graph of a description whose connections all lead. -/
def ofDescription
    (description : Description) : Except CompileError Graph := do
  let edges ←
    edgesOf description.nodes.keys
      description.connections.entries
  .ok ⟨nodesOf description, edges⟩

/- How many nodes can have places of their own. -/
def placeLimit : Nat :=
  Nat.pow 2 32

/- The graph of a description, if there are enough places. -/
def build
    (description : Description) : Except CompileError Graph :=
  if description.nodes.size ≤ placeLimit then
    ofDescription description
  else
    .error (.validation .tooManyNodes)

------------------------------------------------------------
-- Neighbours
------------------------------------------------------------

/- The targets of the edges from a place, edge by edge. -/
def outputsOf
    (graph : Graph)
    (place : Nat) : List Nat :=
  (graph.edges.filter (·.source == place)).map Edge.target

/- The sources of the edges to a place, edge by edge. -/
def inputsOf
    (graph : Graph)
    (place : Nat) : List Nat :=
  (graph.edges.filter (·.target == place)).map Edge.source

/- All places, from low to high. -/
def places (graph : Graph) : List Nat :=
  List.range graph.size

/- What follows each place, and how much leads to it. -/
def adjacency (graph : Graph) : Adjacency where
  targets := graph.places.map graph.outputsOf
  inDegree :=
    graph.places.map fun place => (graph.inputsOf place).length

/- How many nodes have no input. -/
def sourceCount (graph : Graph) : Nat :=
  graph.places.countP fun place =>
    (graph.inputsOf place).isEmpty

/- For every place, whether an edge leads from it. -/
def sourceMarks (graph : Graph) : List Bool :=
  graph.edges.foldl
    (fun marks edge => marks.set edge.source true)
    (List.replicate graph.size false)

/- How many nodes have no output that is used. -/
def sinkCount (graph : Graph) : Nat :=
  graph.sourceMarks.countP fun mark => !mark

/- The places in order, unless some of them wait for ever. -/
def order (graph : Graph) : Except CompileError (List Nat) :=
  match graph.adjacency.order with
  | .ok places => .ok places
  | .error waiting =>
      .error (.cyclicGraph
        ((graph.idsAt waiting).map NodeId.text))

end Graph

end PipelineScript
