import PipelineScript.Proofs.Graph.Tables
import PipelineScript.Proofs.Script.Run

/-
  What the counts of a script count: nodes of its description,
  and imports of its own.

  Key definitions include:
    * `Description.statistics`

  Key theorems include:
    * `Graph.sourceCount_eq`
    * `Graph.sinkCount_eq`
    * `Assembly.unhandled_visitAll`
    * `Compiler.statistics_of_compile`
-/

namespace PipelineScript

variable {settings : Settings} {registry : Registry}
variable {description : Description} {graph : Graph}

------------------------------------------------------------
-- Counting Nodes
------------------------------------------------------------

/-
  The counts that a script of a description has, where it
  imports so many modules: nodes, those that nothing leads to,
  those that lead to nothing, and those whose tag has no
  generator of its own.
-/
def Description.statistics
    (registry : Registry)
    (imports : Nat)
    (description : Description) : Statistics where
  nodes := description.nodes.keys.length
  sources :=
    description.nodes.keys.countP fun id =>
      (description.sourcesOf id).isEmpty
  sinks :=
    description.nodes.keys.countP fun id =>
      (description.targetsOf id).isEmpty
  unhandled :=
    description.nodes.values.countP fun node =>
      !registry.isRegistered node.kind.tag
  imports := imports

namespace Graph

/- Places are counted by the keys that stand in them. -/
theorem countP_places
    (hBuilt : ofDescription description = .ok graph)
    {test : Nat → Bool}
    {keyTest : NodeId → Bool}
    (hSame :
      ∀ {place id},
        description.nodes.keys[place]? = some id →
          test place = keyTest id) :
    graph.places.countP test =
      description.nodes.keys.countP keyTest := by
  have hAll :
      graph.places.map (description.nodes.keys[·]?) =
        description.nodes.keys.map some := by
    rw [places, size_eq hBuilt]
    exact map_getElem?_range _
  have hTest :
      ∀ place ∈ graph.places,
        (description.nodes.keys[place]?).elim false keyTest =
          test place := by
    intro place hPlace
    rw [places, List.mem_range, size_eq hBuilt] at hPlace
    have hKey := List.getElem?_eq_getElem hPlace
    rw [hKey, hSame hKey]
    rfl
  calc
    graph.places.countP test
      = graph.places.countP fun place =>
          (description.nodes.keys[place]?).elim false
            keyTest := by
        apply List.countP_congr
        intro place hPlace
        rw [hTest place hPlace]
    _ = (description.nodes.keys.map some).countP
          (·.elim false keyTest) := by
        rw [← hAll, List.countP_map]
        rfl
    _ = description.nodes.keys.countP keyTest := by
        rw [List.countP_map]
        rfl

/- The sources of a graph are the keys that nothing leads to. -/
theorem sourceCount_eq
    (hBuilt : ofDescription description = .ok graph) :
    graph.sourceCount =
      description.nodes.keys.countP fun id =>
        (description.sourcesOf id).isEmpty := by
  apply countP_places hBuilt
  intro place id hPlace
  rw [Bool.eq_iff_iff, List.isEmpty_iff_length_eq_zero,
    List.isEmpty_iff_length_eq_zero,
    length_inputsOf hBuilt hPlace]

/- The sinks of a graph are the keys that lead to nothing. -/
theorem sinkCount_eq
    (hBuilt : ofDescription description = .ok graph) :
    graph.sinkCount =
      description.nodes.keys.countP fun id =>
        (description.targetsOf id).isEmpty := by
  rw [sinkCount_eq_countP]
  apply countP_places hBuilt
  intro place id hPlace
  rw [outputsOf_eq hBuilt hPlace, List.isEmpty_map]

end Graph

------------------------------------------------------------
-- Counting Placeholders
------------------------------------------------------------

namespace Assembly

/- A visit counts a node whose tag has no generator. -/
theorem unhandled_visit
    {progress next : Progress}
    {place : Nat}
    {node : Node}
    (hVisit :
      (visit settings registry graph progress place
        node).outcome = .ok next) :
    next.unhandled =
      progress.unhandled
        + (if registry.isRegistered node.kind.tag then
            0
          else
            1) := by
  rcases visit_eq_ok_iff.mp hVisit with
    ⟨names, block, imports, -, -, -, -, -, -, rfl⟩
  rfl

/- All visits count all such nodes. -/
theorem unhandled_visitAll
    {progress after : Progress}
    {places : List Nat}
    (hVisit :
      (visitAll settings registry graph progress
        places).outcome = .ok after) :
    after.unhandled =
      progress.unhandled
        + (places.filterMap (graph.nodes[·]?)).countP
          fun node =>
            !registry.isRegistered node.kind.tag := by
  induction places generalizing progress with
  | nil =>
      have hEq : progress = after := by
        simpa [visitAll] using hVisit
      subst hEq
      rfl
  | cons place places ih =>
      cases hNode : graph.nodes[place]? with
      | none =>
          simp only [visitAll, hNode] at hVisit
          simp only [ih hVisit, List.filterMap_cons, hNode]
      | some node =>
          simp only [visitAll, hNode, Traced.outcome_bind_eq_ok]
            at hVisit
          rcases hVisit with ⟨next, hFirst, hRest⟩
          simp only [ih hRest, unhandled_visit hFirst,
            List.filterMap_cons, hNode, List.countP_cons]
          by_cases hTag : registry.isRegistered node.kind.tag
          · simp [hTag]
          · simp only [hTag, Bool.not_false, if_true,
              Bool.false_eq_true, if_false]
            omega

end Assembly

/- In any order, the nodes of a graph are those described. -/
theorem Graph.filterMap_nodes_perm
    (hBuilt : Graph.ofDescription description = .ok graph)
    {places : List Nat}
    (hOrder : graph.order = .ok places) :
    (places.filterMap (graph.nodes[·]?)).Perm
      (Graph.nodesOf description) := by
  have hPerm :=
    (Graph.perm_range_of_order hBuilt hOrder).filterMap
      (graph.nodes[·]?)
  have hAll :
      (List.range graph.size).filterMap (graph.nodes[·]?) =
        graph.nodes := by
    have hSome := filterMap_range_getElem? graph.nodes some
    rw [List.filterMap_some] at hSome
    simpa only [Option.bind_fun_some, size] using hSome
  rw [hAll] at hPerm
  rw [← (Graph.ofDescription_eq_ok_iff.mp hBuilt).1]
  exact hPerm

------------------------------------------------------------
-- Counts of Scripts
------------------------------------------------------------

/- The counts of a script are those of its description. -/
theorem Compiler.statistics_of_compile
    {compiler : Compiler}
    {script : Script}
    (hCompile :
      (compiler.compile description).outcome = .ok script) :
    script.statistics =
      description.statistics compiler.registry
        script.imports.size := by
  rcases Assembly.assemble_eq_ok_iff.mp
      (compile_eq_ok_iff.mp hCompile) with
    ⟨-, graph, order, progress, hGraph, hOrder, hGenerate, rfl⟩
  rw [Assembly.generate, Traced.outcome_bind_eq_ok] at hGenerate
  rcases hGenerate with ⟨defaults, -, hVisit⟩
  have hUnhandled :=
    Assembly.unhandled_visitAll hVisit
  rw [(Graph.filterMap_nodes_perm hGraph hOrder).countP_eq,
    Graph.nodesOf, List.countP_map, Nat.zero_add]
    at hUnhandled
  have hValues :
      description.nodes.values.countP
          (fun node => !compiler.registry.isRegistered
            node.kind.tag) =
        progress.unhandled := by
    rw [hUnhandled, Table.values, List.countP_map]
    rfl
  rw [Assembly.scriptOf, Description.statistics,
    Statistics.mk.injEq]
  exact ⟨Graph.size_eq hGraph, Graph.sourceCount_eq hGraph,
    Graph.sinkCount_eq hGraph, hValues.symm, rfl⟩

end PipelineScript
