import PipelineScript.Proofs.Script.Calls
import PipelineScript.Proofs.Script.Matching
import PipelineScript.Proofs.Text.Lines

/-
  Scripts of descriptions that differ in the options of one
  node.

  A generator is told no options but those of its own node,
  and it puts them into nothing but the lines of its block:
  what it imports goes by the kind of the node. So the block
  of the one node is all that its options can change.

  Key definitions include:
    * `Description.DiffersAt`
    * `Assembly.Progress.bare`
    * `Layout.blockText`
    * `Script.bare`

  Key theorems include:
    * `Call.IsDue.of_differsAt`
    * `Graph.matches_of_differsAt`
    * `Assembly.map_bare_visit`
    * `Assembly.visitAll_bare`
    * `Assembly.assemble_bare`
    * `Call.exists_around`
    * `Compiler.compile_edits_one_block`
-/

namespace PipelineScript

variable {settings : Settings} {registry : Registry}
variable {description other : Description} {id : NodeId}

------------------------------------------------------------
-- Other Options for One Node
------------------------------------------------------------

namespace Description

/-
  Both descriptions are the same, but for the options of one
  of their nodes, which may be any.
-/
structure DiffersAt
    (id : NodeId)
    (description other : Description) : Prop where
  mem : id ∈ description.nodes.keys
  pipelineId_eq : description.pipelineId = other.pipelineId
  remarks_eq : description.remarks = other.remarks
  connections_eq : description.connections = other.connections
  keys_eq : description.nodes.keys = other.nodes.keys
  kind_eq :
    ∀ key,
      (description.nodes.get? key).map NodeRecord.kind =
        (other.nodes.get? key).map NodeRecord.kind
  get?_eq :
    ∀ key,
      key ≠ id →
        description.nodes.get? key = other.nodes.get? key

namespace DiffersAt

/- Nodes have the same names. -/
theorem nameOf?_eq (hEdit : description.DiffersAt id other) :
    description.nameOf? = other.nameOf? := by
  funext key
  have hName (nodes : Table NodeId NodeRecord) :
      ((nodes.get? key).map fun node =>
          nodeName node.kind key) =
        ((nodes.get? key).map NodeRecord.kind).map fun kind =>
          nodeName kind key := by
    rw [Option.map_map]
    rfl
  rw [nameOf?, nameOf?, hName, hName, hEdit.kind_eq]

/- The same connections lead to every key. -/
theorem sourcesOf_eq (hEdit : description.DiffersAt id other) :
    description.sourcesOf = other.sourcesOf := by
  funext key
  rw [sourcesOf, sourcesOf, hEdit.connections_eq]

end DiffersAt

/- A node of the same kind under a key has other options. -/
theorem differsAt_putNode
    {node : NodeRecord}
    {tag : String}
    (hNode : description.nodes.get? id = some node)
    (hTag : NodeKind.ofTag tag = node.kind)
    (options : Options) :
    description.DiffersAt id
      (description.putNode id tag options) := by
  have hMem : id ∈ description.nodes.keys :=
    List.mem_map_of_mem (Table.get?_eq_some_iff.mp hNode)
  refine ⟨hMem, rfl, rfl, rfl, ?_, ?_, ?_⟩
  · rw [putNode, Table.keys_insert, if_pos hMem]
  · intro key
    rw [putNode, Table.get?_insert]
    split
    · next hKey => rw [hKey, hNode, Option.map_some,
        Option.map_some, hTag]
    · rfl
  · intro key hKey
    rw [putNode, Table.get?_insert, if_neg hKey]

end Description

/- Of another node the same is told in both descriptions. -/
theorem Request.IsFor.of_differsAt
    {request : Request}
    (hEdit : description.DiffersAt id other)
    (hFor : request.IsFor settings other)
    (hId : request.id ≠ id) :
    request.IsFor settings description where
  node_eq := by
    rw [hEdit.get?_eq _ hId]
    exact hFor.node_eq
  name_eq := hFor.name_eq
  inputs_eq := by
    rw [hEdit.sourcesOf_eq, hEdit.nameOf?_eq]
    exact hFor.inputs_eq
  layout_eq := hFor.layout_eq

/- A call for another node is due in both descriptions. -/
theorem Call.IsDue.of_differsAt
    {call : Call}
    (hEdit : description.DiffersAt id other)
    (hDue : call.IsDue settings registry other)
    (hId : call.request.id ≠ id) :
    call.IsDue settings registry description where
  isFor := hDue.isFor.of_differsAt hEdit hId
  generated_eq := hDue.generated_eq

------------------------------------------------------------
-- The Same Graph
------------------------------------------------------------

namespace Graph

variable {graph another : Graph}

/- The kinds of the nodes are looked up under their keys. -/
theorem map_kind_nodesOf (description : Description) :
    ((nodesOf description).map Node.kind).map some =
      description.nodes.keys.map fun key =>
        (description.nodes.get? key).map NodeRecord.kind := by
  rw [nodesOf, Table.keys, Entries.keys, List.map_map,
    List.map_map, List.map_map]
  apply List.map_congr_left
  rintro ⟨key, node⟩ hEntry
  have hNode : description.nodes.get? key = some node :=
    Table.get?_eq_some_iff.mpr hEntry
  simp [hNode]

/- The same nodes stand in the same places, but for options. -/
theorem map_kind_eq_of_differsAt
    (hEdit : description.DiffersAt id other)
    (hGraph : ofDescription description = .ok graph)
    (hOther : ofDescription other = .ok another) :
    graph.nodes.map Node.kind = another.nodes.map Node.kind := by
  apply List.map_injective_iff.mpr
    (Option.some_injective NodeKind)
  rw [(ofDescription_eq_ok_iff.mp hGraph).1,
    (ofDescription_eq_ok_iff.mp hOther).1, map_kind_nodesOf,
    map_kind_nodesOf, hEdit.keys_eq]
  exact List.map_congr_left fun key _ => hEdit.kind_eq key

/- Both descriptions have graphs with the same edges. -/
theorem ofDescription_of_differsAt
    (hEdit : description.DiffersAt id other) :
    ofDescription other =
      (ofDescription description).map fun graph =>
        ⟨nodesOf other, graph.edges⟩ := by
  unfold ofDescription
  rw [hEdit.keys_eq, hEdit.connections_eq]
  cases edgesOf other.nodes.keys other.connections.entries with
  | ok edges => rfl
  | error error => rfl

/- Graphs that differ in options match. -/
theorem matches_of_differsAt
    (hEdit : description.DiffersAt id other)
    (hGraph : ofDescription description = .ok graph)
    (hOther : ofDescription other = .ok another) :
    graph.Matches another := by
  have hEdges : graph.edges = another.edges := by
    rw [ofDescription_of_differsAt hEdit, hGraph] at hOther
    rw [← Except.ok.inj hOther]
  constructor
  · rw [(ofDescription_eq_ok_iff.mp hGraph).1,
      (ofDescription_eq_ok_iff.mp hOther).1, map_id_nodesOf,
      map_id_nodesOf, hEdit.keys_eq]
  · funext place
    rw [inputsOf, inputsOf, hEdges]
  · funext place
    rw [outputsOf, outputsOf, hEdges]

end Graph

------------------------------------------------------------
-- Visits Without Their Lines
------------------------------------------------------------

namespace Assembly

variable {graph another : Graph}
variable {progress state : Progress}

/- What is made besides the lines of blocks. -/
def Progress.bare (progress : Progress) : Progress :=
  { progress with body := [] }

/- Without strictness a block imports what its kind does. -/
theorem exists_generate_of_kind
    (hLoose : settings.strictModels = false)
    (request : Request)
    (hLayout : request.layout = settings.layout) :
    ∃ generated,
      (Registry.standard.generate request).outcome =
          .ok generated ∧
        generated.imports = request.kind.imports := by
  have hStrict : request.layout.isStrict = false := by
    rw [hLayout]
    exact hLoose
  rcases Registry.exists_generate_standard hStrict with
    ⟨generated, hGenerate⟩
  exact ⟨generated, hGenerate,
    (Registry.becomes_of_generate hGenerate).2⟩

/-
  A visit without its lines. The options of the node are not
  looked at.
-/
theorem map_bare_visit
    (hLoose : settings.strictModels = false)
    (progress : Progress)
    (place : Nat)
    (node : Node) :
    (visit settings .standard graph progress place
        node).outcome.map Progress.bare =
      (do
        let names ←
          progress.names.assign place node.id
            (nodeName node.kind node.id)
        let _ ← inputNames graph names node (graph.inputsOf place)
        let own ←
          ImportBlock.ofDirectives
            (node.kind.imports
              ++ settings.imports.forTag node.kind.tag)
        let imports ← progress.imports.merge own
        return {
          body := []
          imports := imports
          names := names
          unhandled :=
            progress.unhandled
              + (if Registry.standard.isRegistered
                    node.kind.tag then
                  0
                else
                  1) }) := by
  simp only [visit, Traced.outcome_ofExcept_bind, map_bind]
  apply bind_congr
  intro names
  apply bind_congr
  intro inputs
  rcases exists_generate_of_kind hLoose
      { id := node.id
        kind := node.kind
        name := nodeName node.kind node.id
        options := node.options
        inputs := inputs
        layout := settings.layout }
      rfl with
    ⟨generated, hGenerate, hImports⟩
  rw [Traced.outcome_bind_of_ok hGenerate]
  simp only [Traced.outcome_ofExcept_bind, map_bind,
    blockImports_eq, hImports, bind_assoc]
  rfl

/- Visits of nodes that differ in options differ in lines. -/
theorem visit_bare
    (hMatch : graph.Matches another)
    (hLoose : settings.strictModels = false)
    (hBare : progress.bare = state.bare)
    {node copy : Node}
    (hId : node.id = copy.id)
    (hKind : node.kind = copy.kind)
    (place : Nat) :
    (visit settings .standard graph progress place
        node).outcome.map Progress.bare =
      (visit settings .standard another state place
        copy).outcome.map Progress.bare := by
  rcases Progress.mk.inj hBare with
    ⟨-, hImports, hNames, hUnhandled⟩
  rw [map_bare_visit hLoose, map_bare_visit hLoose, hImports,
    hNames, hUnhandled, hId, hKind, hMatch.inputsOf_eq]
  simp only [hMatch.inputNames_eq _ hId]

/- All visits of such nodes differ in their lines alone. -/
theorem visitAll_bare
    (hMatch : graph.Matches another)
    (hKinds :
      graph.nodes.map Node.kind = another.nodes.map Node.kind)
    (hLoose : settings.strictModels = false)
    (hBare : progress.bare = state.bare)
    (places : List Nat) :
    (visitAll settings .standard graph progress
        places).outcome.map Progress.bare =
      (visitAll settings .standard another state
        places).outcome.map Progress.bare := by
  induction places generalizing progress state with
  | nil => exact congrArg Except.ok hBare
  | cons place places ih =>
      rcases hMatch.node_cases place with
        ⟨hNode, hCopy⟩ | ⟨node, copy, hNode, hCopy, hId⟩
      · simp only [visitAll, hNode, hCopy]
        exact ih hBare
      · have hKind := congrArg (·[place]?) hKinds
        simp only [List.getElem?_map, hNode, hCopy,
          Option.map_some, Option.some.injEq] at hKind
        simp only [visitAll, hNode, hCopy]
        exact Traced.map_outcome_bind
          (visit_bare hMatch hLoose hBare hId hKind place)
          fun _ _ hNext => ih hNext

/- Making all blocks differs in their lines alone. -/
theorem generate_bare
    (hMatch : graph.Matches another)
    (hKinds :
      graph.nodes.map Node.kind = another.nodes.map Node.kind)
    (hLoose : settings.strictModels = false)
    (places : List Nat) :
    (generate settings .standard graph
        places).outcome.map Progress.bare =
      (generate settings .standard another
        places).outcome.map Progress.bare := by
  apply Traced.map_outcome_bind_congr
  intro imports
  exact visitAll_bare hMatch hKinds hLoose rfl places

end Assembly

------------------------------------------------------------
-- Lines Around a Block
------------------------------------------------------------

namespace Layout

/- The lines in front of a block, with those of other blocks. -/
def linesBefore
    (settings : Settings)
    (remarks : List String)
    (imports : ImportBlock)
    (body : List String) : List String :=
  headerLines remarks
    ++ importLines imports
    ++ ["def " ++ settings.entrypoint ++ "():"]
    ++ deviceLines settings
    ++ body.map (bodyLine settings.indent)

/- The lines behind a block, with those of other blocks. -/
def linesAfter
    (settings : Settings)
    (body : List String) : List String :=
  body.map (bodyLine settings.indent)
    ++ [settings.indent ++ completionMessage]
    ++ callLines settings

/- The text that a block becomes. -/
def blockText
    (settings : Settings)
    (generated : Generated) : String :=
  Text.unlines
    (generated.lines.map (bodyLine settings.indent))

/- Every block has its text between what is around it. -/
theorem unlines_around
    (remarks : List String)
    (imports : ImportBlock)
    (before after : List Call)
    (call : Call) :
    Text.unlines
        (lines settings remarks imports
          ((before ++ [call] ++ after).flatMap fun call =>
            call.generated.lines)) =
      Text.unlines
          (linesBefore settings remarks imports
            (before.flatMap fun call => call.generated.lines))
        ++ blockText settings call.generated
        ++ Text.unlines
          (linesAfter settings
            (after.flatMap fun call =>
              call.generated.lines)) := by
  rw [blockText, ← Text.unlines_append, ← Text.unlines_append]
  simp [lines, routineLines, linesBefore, linesAfter]

end Layout

------------------------------------------------------------
-- Scripts That Differ in One Block
------------------------------------------------------------

/- What is known of a script besides its text. -/
def Script.bare (script : Script) : Script :=
  { script with text := "" }

/- Scripts with the same of it differ in their texts alone. -/
theorem Script.eq_of_bare_eq
    {script edited : Script}
    (hBare : script.bare = edited.bare) :
    edited = { script with text := edited.text } := by
  cases script
  cases edited
  simp_all [bare]

namespace Assembly

variable {graph another : Graph}
variable {progress state : Progress}

/- Progress that differs in lines makes another text only. -/
theorem scriptOf_bare
    (hEdit : description.DiffersAt id other)
    (hMatch : graph.Matches another)
    (hBare : progress.bare = state.bare)
    (places : List Nat) :
    (scriptOf settings description graph places
        progress).bare =
      (scriptOf settings other another places state).bare := by
  rcases Progress.mk.inj hBare with
    ⟨-, hImports, hNames, hUnhandled⟩
  have hEntries :
      (scriptOf settings description graph places
          progress).names =
        (scriptOf settings other another places
          state).names := by
    apply List.filterMap_congr
    intro place _
    rw [hNames]
    rcases hMatch.node_cases place with
      ⟨hNode, hCopy⟩ | ⟨node, copy, hNode, hCopy, hId⟩
    · rw [hNode, hCopy]
    · cases state.names.get? place with
      | none => simp only [hNode, hCopy]
      | some name => simp only [hNode, hCopy, hId]
  rw [Script.bare, Script.bare, hEntries]
  simp only [scriptOf, hEdit.pipelineId_eq, hImports,
    hUnhandled, hMatch.idsAt_eq, hMatch.size_eq,
    hMatch.sourceCount_eq, hMatch.sinkCount_eq]

/- Both runs come to the same, but for a text. -/
theorem assemble_bare
    (hLoose : settings.strictModels = false)
    (hEdit : description.DiffersAt id other) :
    (assemble settings .standard description).outcome.map
        Script.bare =
      (assemble settings .standard other).outcome.map
        Script.bare := by
  have hGraphs := Graph.ofDescription_of_differsAt hEdit
  rw [outcome_assemble, outcome_assemble]
  apply map_bind_congr
  intro _
  cases hGraph : Graph.ofDescription description with
  | error error =>
      rw [hGraph] at hGraphs
      rw [hGraphs]
      rfl
  | ok graph =>
      rw [hGraph] at hGraphs
      have hMatch :=
        Graph.matches_of_differsAt hEdit hGraph hGraphs
      have hKinds :=
        Graph.map_kind_eq_of_differsAt hEdit hGraph hGraphs
      rw [hGraphs]
      -- Both runs go on from their graphs in the same way.
      change
        (graph.order >>= fun places => _).map Script.bare =
          (Graph.order _ >>= fun places => _).map Script.bare
      rw [hMatch.order_eq]
      apply map_bind_congr
      intro places
      apply map_bind_of_map_eq (f := Progress.bare)
        (generate_bare hMatch hKinds hLoose places)
      intro progress state hBare
      exact congrArg Except.ok
        (scriptOf_bare hEdit hMatch hBare places)

end Assembly

/-
  The keys are those of the calls in one order. For all but
  one of them, the same calls are due.
-/
theorem Call.exists_around
    {calls edits : List Call}
    (hEdit : description.DiffersAt id other)
    (hPerm :
      (calls.map fun call => call.request.id).Perm
        description.nodes.keys)
    (hIds :
      (edits.map fun call => call.request.id) =
        calls.map fun call => call.request.id)
    (hCalls :
      ∀ call ∈ calls, call.IsDue settings registry description)
    (hEdits :
      ∀ call ∈ edits, call.IsDue settings registry other) :
    ∃ before call edited after,
      calls = before ++ [call] ++ after ∧
        edits = before ++ [edited] ++ after ∧
        call.request.id = id ∧ edited.request.id = id := by
  have hMem := hPerm.mem_iff.mpr hEdit.mem
  rcases List.mem_map.mp hMem with ⟨call, hCall, hId⟩
  rcases List.append_of_mem hCall with ⟨before, after, rfl⟩
  rw [List.map_append, List.map_cons,
    List.map_eq_append_iff] at hIds
  rcases hIds with ⟨front, rest, rfl, hFront, hRest⟩
  rw [List.map_eq_cons_iff] at hRest
  rcases hRest with ⟨edited, back, rfl, hEdited, hBack⟩
  -- Calls in front of it and behind it have other keys.
  have hNodup := hPerm.nodup_iff.mpr description.nodes.distinct
  rw [List.map_append, List.map_cons, hId,
    List.nodup_middle, List.nodup_cons, List.mem_append,
    not_or] at hNodup
  have hSame {first second : List Call}
      (hFirst : first ⊆ before ++ call :: after)
      (hSecond : second ⊆ front ++ edited :: back)
      (hIds :
        (second.map fun call => call.request.id) =
          first.map fun call => call.request.id)
      (hNew : id ∉ first.map fun call => call.request.id) :
      second = first := by
    refine Call.eq_of_ids_eq ?_
      (fun call hCall => hCalls call (hFirst hCall)) hIds
    intro call hCall
    apply (hEdits call (hSecond hCall)).of_differsAt hEdit
    rintro rfl
    exact hNew (hIds ▸ List.mem_map_of_mem hCall)
  have hFront : front = before :=
    hSame (by simp) (by simp) hFront hNodup.1.1
  have hBack : back = after :=
    hSame (by simp) (by simp) hBack hNodup.1.2
  subst hFront hBack
  exact ⟨front, call, edited, back, by simp, by simp, hId,
    hEdited.trans hId⟩

namespace Compiler

/-
  With other options for one node, either both descriptions
  fail with the same error, or both become scripts that differ
  in their texts alone.
-/
theorem compile_of_differsAt
    (hLoose : settings.strictModels = false)
    (hEdit : description.DiffersAt id other) :
    (∃ error,
      ((ofSettings settings).compile description).outcome =
          .error error ∧
        ((ofSettings settings).compile other).outcome =
          .error error) ∨
      ∃ script edited,
        ((ofSettings settings).compile description).outcome =
            .ok script ∧
          ((ofSettings settings).compile other).outcome =
            .ok edited ∧
          edited = { script with text := edited.text } := by
  rcases map_eq_map (Assembly.assemble_bare hLoose hEdit) with
    ⟨error, hError, hOther⟩ |
      ⟨script, edited, hScript, hEdited, hBare⟩
  · exact Or.inl ⟨error, compile_eq_error_iff.mpr hError,
      compile_eq_error_iff.mpr hOther⟩
  · exact Or.inr ⟨script, edited,
      compile_eq_ok_iff.mpr hScript,
      compile_eq_ok_iff.mpr hEdited,
      Script.eq_of_bare_eq hBare⟩

/-
  The options of a node are seen in its block, and nowhere
  else. Whatever they are, a description becomes a script or
  fails with the same error, and the script has the same nodes
  in the same order, the same names, imports and counts. Its
  text is the same in front of the block and behind it.
-/
theorem compile_edits_one_block
    (settings : Settings)
    (description other : Description)
    (id : NodeId)
    (hLoose : settings.strictModels = false)
    (hEdit : description.DiffersAt id other) :
    let compile := (ofSettings settings).compile
    (∃ error,
      (compile description).outcome = .error error ∧
        (compile other).outcome = .error error) ∨
      ∃ (script edited : Script) (call edit : Call)
          (front back : String),
        (compile description).outcome = .ok script ∧
          (compile other).outcome = .ok edited ∧
          edited = { script with text := edited.text } ∧
          call.request.id = id ∧
          call.IsDue settings .standard description ∧
          edit.request.id = id ∧
          edit.IsDue settings .standard other ∧
          script.text =
            front ++ Layout.blockText settings call.generated
              ++ back ∧
          edited.text =
            front ++ Layout.blockText settings edit.generated
              ++ back := by
  intro compile
  rcases compile_of_differsAt hLoose hEdit with
    hError | ⟨script, edited, hScript, hEdited, hSame⟩
  · exact Or.inl hError
  rcases exists_calls hScript with ⟨calls, hCalls, -⟩
  rcases exists_calls hEdited with ⟨edits, hEdits, -⟩
  have hIds :
      (edits.map fun call => call.request.id) =
        calls.map fun call => call.request.id := by
    rw [← hEdits.order_eq, ← hCalls.order_eq, hSame]
  rcases Call.exists_around hEdit hCalls.perm hIds hCalls.isDue
      hEdits.isDue with
    ⟨before, call, edit, after, rfl, rfl, hCall, hEditId⟩
  have hText := hCalls.text_eq
  have hOther := hEdits.text_eq
  rw [Layout.unlines_around] at hText hOther
  have hImports : edited.imports = script.imports := by
    rw [hSame]
  rw [hImports, ← hEdit.remarks_eq] at hOther
  exact Or.inr ⟨script, edited, call, edit, _, _, hScript,
    hEdited, hSame, hCall, hCalls.isDue call (by simp), hEditId,
    hEdits.isDue edit (by simp), hText, hOther⟩

/- Other options for a model behind a loader. -/
theorem compile_of_edited_training :
    let whole : Description :=
      ((Description.empty.putNode ⟨"a"⟩ "DataLoader" .empty
        ).putNode ⟨"b"⟩ "ModelTraining" .empty
        ).connect ⟨"a"⟩ ⟨"b"⟩
    let edited : Description :=
      whole.putNode ⟨"b"⟩ "ModelTraining"
        ⟨[("modelType", .text "vgg16"),
          ("epochs", .array [.null])]⟩
    let compile := (ofSettings .standard).compile
    (Settings.standard.strictModels = false ∧
        whole.DiffersAt ⟨"b"⟩ edited) ∧
      ∃ (script other : Script) (call edit : Call)
          (front back : String),
        (compile whole).outcome = .ok script ∧
          (compile edited).outcome = .ok other ∧
          other = { script with text := other.text } ∧
          call.request.id = ⟨"b"⟩ ∧
          edit.request.id = ⟨"b"⟩ ∧
          script.text =
            front ++ Layout.blockText .standard call.generated
              ++ back ∧
          other.text =
            front
              ++ Layout.blockText .standard edit.generated
              ++ back := by
  intro whole edited compile
  have hEdit : whole.DiffersAt ⟨"b"⟩ edited :=
    Description.differsAt_putNode rfl rfl _
  have hCompile :
      ∃ script, (compile whole).outcome = .ok script := by
    apply exists_compile_of_rank fun id =>
      if id.text = "b" then 1 else 0
    · rfl
    · rfl
    · decide
    · decide
    · exact ⟨by decide, by decide⟩
  rcases hCompile with ⟨script, hScript⟩
  rcases compile_edits_one_block .standard whole edited ⟨"b"⟩
      rfl hEdit with
    ⟨error, hError, -⟩ | ⟨same, other, call, edit, front,
      back, hSame, hOther, hEq, hCall, -, hEditId, -, hText,
      hEdited⟩
  · rw [hScript] at hError
    cases hError
  · exact ⟨⟨rfl, hEdit⟩, same, other, call, edit, front, back,
      hSame, hOther, hEq, hCall, hEditId, hText, hEdited⟩

end Compiler

end PipelineScript
