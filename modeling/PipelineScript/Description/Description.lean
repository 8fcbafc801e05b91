import PipelineScript.Description.Options

/-
  Pipelines as their authors describe them: nodes of some kind
  with options, and connections between their ports.

  Nodes and connections keep the order in which they came.

  Key definitions include:
    * `Description`
    * `Description.toJson`
    * `Description.record`
    * `Description.decode`
    * `Description.connect`
-/

namespace PipelineScript

------------------------------------------------------------
-- Nodes
------------------------------------------------------------

/- What is told of a node under its key. -/
structure NodeRecord where
  kind : NodeKind
  options : Options
deriving Repr

namespace NodeRecord

/- The record as JSON. -/
def toJson (node : NodeRecord) : Json.Value :=
  .object
    [("type", .text node.kind.tag),
      ("data", node.options.toJson)]

/- What was read of a record. -/
structure Draft where
  kind : Option NodeKind
  options : Option Options

/- How a record is read. Options may be left out. -/
def record : Json.Record Event Draft NodeRecord where
  name := "NodeRecord"
  fields :=
    [.place "type" [] Draft.kind
        (fun kind draft => { draft with kind := some kind })
        (fun _ => Json.Reader.text.map NodeKind.ofTag),
      .place "data" [] Draft.options
        (fun options draft =>
          { draft with options := some options })
        (fun depth =>
          ((Json.Reader.value depth).noting
            Options.remarks).map Options.ofValue)]
  empty := ⟨none, none⟩
  complete := fun draft =>
    match draft.kind with
    | none => .error "type"
    | some kind => .ok ⟨kind, draft.options.getD .empty⟩

end NodeRecord

------------------------------------------------------------
-- Connections
------------------------------------------------------------

/- The target takes what the source puts out. -/
structure Connection where
  source : NodeId
  sourceSlot : SlotId
  target : NodeId
  targetSlot : SlotId
deriving DecidableEq, Repr

namespace Connection

/- A connection between the usual ports. -/
def between (source target : NodeId) : Connection where
  source := source
  sourceSlot := ⟨"output"⟩
  target := target
  targetSlot := ⟨"input"⟩

/- The connection leads back to its own source. -/
def isLoop (connection : Connection) : Bool :=
  connection.source == connection.target

/- The connection as JSON. -/
def toJson (connection : Connection) : Json.Value :=
  .object
    [("sourceNodeId", .text connection.source.text),
      ("sourcePortId", .text connection.sourceSlot.text),
      ("targetNodeId", .text connection.target.text),
      ("targetPortId", .text connection.targetSlot.text)]

/- What was read of a connection. -/
structure Draft where
  source : Option NodeId
  sourceSlot : Option SlotId
  target : Option NodeId
  targetSlot : Option SlotId

/- How a connection is read. A slot left out has no name. -/
def record : Json.Record Event Draft Connection where
  name := "Connection"
  fields :=
    [.place "sourceNodeId" [] Draft.source
        (fun source draft => { draft with source := some source })
        (fun _ => Json.Reader.text.map NodeId.mk),
      .place "sourcePortId" [] Draft.sourceSlot
        (fun slot draft => { draft with sourceSlot := some slot })
        (fun _ => Json.Reader.text.map SlotId.mk),
      .place "targetNodeId" [] Draft.target
        (fun target draft => { draft with target := some target })
        (fun _ => Json.Reader.text.map NodeId.mk),
      .place "targetPortId" [] Draft.targetSlot
        (fun slot draft => { draft with targetSlot := some slot })
        (fun _ => Json.Reader.text.map SlotId.mk)]
  empty := ⟨none, none, none, none⟩
  complete := fun draft =>
    match draft.source, draft.target with
    | none, _ => .error "sourceNodeId"
    | _, none => .error "targetNodeId"
    | some source, some target =>
        .ok
          { source := source
            sourceSlot := draft.sourceSlot.getD ⟨""⟩
            target := target
            targetSlot := draft.targetSlot.getD ⟨""⟩ }

end Connection

------------------------------------------------------------
-- Descriptions
------------------------------------------------------------

/- A whole pipeline. -/
structure Description where
  pipelineId : Option String
  nodes : Table NodeId NodeRecord
  connections : Table ConnectionId Connection
  remarks : List String
deriving Repr

namespace Description

/- No nodes and no connections. -/
def empty : Description where
  pipelineId := none
  nodes := .empty
  connections := .empty
  remarks := []

/- There are no nodes. -/
def isEmpty (description : Description) : Bool :=
  description.nodes.isEmpty

------------------------------------------------------------
-- Building
------------------------------------------------------------

/- The description under a name. -/
def named
    (description : Description)
    (id : String) : Description :=
  { description with pipelineId := some id }

/- The description with one more remark. -/
def describe
    (description : Description)
    (remark : String) : Description :=
  { description with
    remarks := description.remarks ++ [remark] }

/- The description with a node put under its key. -/
def putNode
    (description : Description)
    (id : NodeId)
    (tag : String)
    (options : Options) : Description :=
  { description with
    nodes := description.nodes.insert id ⟨.ofTag tag, options⟩ }

/- The description with a connection put under its key. -/
def putConnection
    (description : Description)
    (id : ConnectionId)
    (connection : Connection) : Description :=
  { description with
    connections := description.connections.insert id connection }

/- The key that is made up for the next connection. -/
def nextConnectionId
    (description : Description) : ConnectionId :=
  ⟨"conn" ++ String.ofList
    (Number.natText (description.connections.size + 1))⟩

/- The description with a connection under a made-up key. -/
def connect
    (description : Description)
    (source target : NodeId) : Description :=
  description.putConnection description.nextConnectionId
    (.between source target)

------------------------------------------------------------
-- Writing
------------------------------------------------------------

/-
  The description as JSON. The name and the remarks are left
  out where there are none.
-/
def toJson (description : Description) : Json.Value :=
  .object
    ((match description.pipelineId with
        | some id => [("pipelineId", .text id)]
        | none => [])
      ++ [("nodes", .object
            (description.nodes.entries.map fun entry =>
              (entry.1.text, entry.2.toJson))),
          ("connections", .object
            (description.connections.entries.map fun entry =>
              (entry.1.text, entry.2.toJson)))]
      ++ (if description.remarks.isEmpty then
            []
          else
            [("descriptions",
              .array (description.remarks.map .text))]))

------------------------------------------------------------
-- Reading
------------------------------------------------------------

/- What was read of a description. -/
structure Draft where
  pipelineId : Option (Option String)
  nodes : Option (Table NodeId NodeRecord)
  connections : Option (Table ConnectionId Connection)
  remarks : Option (List String)

/- How a description is read. All of it may be left out. -/
def record : Json.Record Event Draft Description where
  name := "PipelineDescription"
  fields :=
    [.place "pipelineId" [] Draft.pipelineId
        (fun id draft => { draft with pipelineId := some id })
        (fun _ => Json.Reader.text.option),
      .place "nodes" [] Draft.nodes
        (fun nodes draft => { draft with nodes := some nodes })
        (Json.Reader.table NodeId.mk NodeRecord.record.reader),
      .place "connections" [] Draft.connections
        (fun connections draft =>
          { draft with connections := some connections })
        (Json.Reader.table ConnectionId.mk
          Connection.record.reader),
      .place "descriptions" [] Draft.remarks
        (fun remarks draft =>
          { draft with remarks := some remarks })
        (Json.Reader.list fun _ => Json.Reader.text)]
  empty := ⟨none, none, none, none⟩
  complete := fun draft =>
    .ok
      { pipelineId := draft.pipelineId.getD none
        nodes := draft.nodes.getD .empty
        connections := draft.connections.getD .empty
        remarks := draft.remarks.getD [] }

/- The description in a text. -/
def decode
    [Json.Codec]
    (text : String) : Traced Event Json.Fault Description :=
  Json.decode record.reader text

end Description

end PipelineScript
