import PipelineScript.Proofs.Script.Compiling
import PipelineScript.Proofs.Script.Matching
import PipelineScript.Proofs.Script.Visiting

/-
  Scripts of descriptions whose connections lead the same ways
  in another order.

  Under which keys connections stand, which slots they join
  and how those of different nodes follow one another makes no
  difference. What counts is where the connections of a node
  lead, and where those to it come from, one by one.

  Key definitions include:
    * `Description.IsRewiring`

  Key theorems include:
    * `Graph.matches_of_isRewiring`
    * `Compiler.compile_eq_of_isRewiring`
    * `Compiler.compile_rewiring`
-/

namespace PipelineScript

variable {settings : Settings} {registry : Registry}
variable {description other : Description}

------------------------------------------------------------
-- The Same Ways
------------------------------------------------------------

namespace Description

/-
  One description has the nodes of another, and its
  connections lead the same ways: the same targets follow one
  another from every key, and the same sources to every key.
-/
structure IsRewiring
    (description other : Description) : Prop where
  pipelineId_eq : description.pipelineId = other.pipelineId
  remarks_eq : description.remarks = other.remarks
  nodes_eq : description.nodes = other.nodes
  targetsOf_eq :
    ∀ id, description.targetsOf id = other.targetsOf id
  sourcesOf_eq :
    ∀ id, description.sourcesOf id = other.sourcesOf id

/- Some connection leads to every target of a key. -/
theorem mem_targetsOf_iff {source target : NodeId} :
    target ∈ description.targetsOf source ↔
      description.Leads source target := by
  simp [targetsOf, Leads, and_assoc]

/- A description is linked if all ways join nodes. -/
theorem isLinked_iff :
    description.IsLinked ↔
      ∀ {source target},
        description.Leads source target →
          source ∈ description.nodes.keys ∧
            target ∈ description.nodes.keys := by
  constructor
  · rintro hLinked _ _ ⟨connection, hConnection, rfl, rfl⟩
    exact hLinked connection hConnection
  · intro hLeads connection hConnection
    exact hLeads ⟨connection, hConnection, rfl, rfl⟩

namespace IsRewiring

/- The same keys lead to one another. -/
theorem leads_iff
    (hSame : description.IsRewiring other)
    {source target : NodeId} :
    description.Leads source target ↔
      other.Leads source target := by
  rw [← mem_targetsOf_iff, ← mem_targetsOf_iff,
    hSame.targetsOf_eq]

/- Ways that join nodes still do. -/
theorem isLinked_iff
    (hSame : description.IsRewiring other) :
    description.IsLinked ↔ other.IsLinked := by
  simp only [Description.isLinked_iff, hSame.leads_iff,
    hSame.nodes_eq]

end IsRewiring

/-
  Connections that share no end can change places where they
  follow one another.
-/
theorem isRewiring_of_swap
    (before after : List (ConnectionId × Connection))
    (first second : ConnectionId × Connection)
    (hName : description.pipelineId = other.pipelineId)
    (hRemarks : description.remarks = other.remarks)
    (hNodes : description.nodes = other.nodes)
    (hEntries :
      description.connections.entries =
        before ++ first :: second :: after)
    (hOther :
      other.connections.entries =
        before ++ second :: first :: after)
    (hSources : first.2.source ≠ second.2.source)
    (hTargets : first.2.target ≠ second.2.target) :
    description.IsRewiring other where
  pipelineId_eq := hName
  remarks_eq := hRemarks
  nodes_eq := hNodes
  targetsOf_eq := by
    intro id
    rw [targetsOf, targetsOf, Table.values, Table.values,
      hEntries, hOther]
    by_cases hFirst : first.2.source = id
    · have hSecond : ¬ second.2.source = id := fun hSecond =>
        hSources (hFirst.trans hSecond.symm)
      simp [hFirst, hSecond]
    · simp [List.filter_cons, hFirst]
  sourcesOf_eq := by
    intro id
    rw [sourcesOf, sourcesOf, Table.values, Table.values,
      hEntries, hOther]
    by_cases hFirst : first.2.target = id
    · have hSecond : ¬ second.2.target = id := fun hSecond =>
        hTargets (hFirst.trans hSecond.symm)
      simp [hFirst, hSecond]
    · simp [List.filter_cons, hFirst]

end Description

/- The graphs of the same ways match. -/
theorem Graph.matches_of_isRewiring
    {graph another : Graph}
    (hSame : description.IsRewiring other)
    (hGraph : ofDescription description = .ok graph)
    (hOther : ofDescription other = .ok another) :
    graph.Matches another where
  ids_eq := by
    rw [(ofDescription_eq_ok_iff.mp hGraph).1,
      (ofDescription_eq_ok_iff.mp hOther).1, map_id_nodesOf,
      map_id_nodesOf, hSame.nodes_eq]
  inputsOf_eq := by
    funext place
    have hKeys := congrArg Table.keys hSame.nodes_eq
    cases hPlace : description.nodes.keys[place]? with
    | none =>
        rw [inputsOf_eq_nil hGraph hPlace,
          inputsOf_eq_nil hOther (hKeys ▸ hPlace)]
    | some id =>
        rw [inputsOf_eq hGraph hPlace,
          inputsOf_eq hOther (hKeys ▸ hPlace),
          hSame.sourcesOf_eq, hKeys]
  outputsOf_eq := by
    funext place
    have hKeys := congrArg Table.keys hSame.nodes_eq
    cases hPlace : description.nodes.keys[place]? with
    | none =>
        rw [outputsOf_eq_nil hGraph hPlace,
          outputsOf_eq_nil hOther (hKeys ▸ hPlace)]
    | some id =>
        rw [outputsOf_eq hGraph hPlace,
          outputsOf_eq hOther (hKeys ▸ hPlace),
          hSame.targetsOf_eq, hKeys]

------------------------------------------------------------
-- The Same Scripts
------------------------------------------------------------

/- The same ways are made into the same script. -/
theorem Assembly.run_eq_of_isRewiring
    (hSame : description.IsRewiring other)
    (hLinked : description.IsLinked) :
    run settings registry description =
      run settings registry other := by
  rcases Graph.exists_ofDescription_iff_isLinked.mpr
      hLinked with
    ⟨graph, hGraph⟩
  rcases Graph.exists_ofDescription_iff_isLinked.mpr
      (hSame.isLinked_iff.mp hLinked) with
    ⟨another, hOther⟩
  have hMatch :=
    Graph.matches_of_isRewiring hSame hGraph hOther
  have hNodes : graph.nodes = another.nodes := by
    rw [(Graph.ofDescription_eq_ok_iff.mp hGraph).1,
      (Graph.ofDescription_eq_ok_iff.mp hOther).1,
      Graph.nodesOf, Graph.nodesOf, hSame.nodes_eq]
  unfold run
  simp only [hGraph, hOther, Staged.lift_ok_bind,
    hMatch.order_eq,
    hMatch.generate_eq hNodes,
    hMatch.scriptOf_eq hNodes hSame.pipelineId_eq
      hSame.remarks_eq]

namespace Compiler

variable {compiler : Compiler}

/- The same ways are compiled to the same end. -/
theorem compile_eq_of_isRewiring
    (hSame : description.IsRewiring other)
    (hLinked : description.IsLinked) :
    compiler.compile description = compiler.compile other := by
  unfold compile Assembly.assemble Assembly.conduct
  rw [Assembly.run_eq_of_isRewiring hSame hLinked,
    hSame.pipelineId_eq]

/- What is not linked fails for its settings or its structure. -/
theorem exists_validation_of_unlinked
    (compiler : Compiler)
    (hUnlinked : ¬ description.IsLinked) :
    ∃ problem,
      (compiler.compile description).outcome =
        .error (.validation problem) := by
  simp only [compile_eq_error_iff,
    Assembly.assemble_eq_error_iff]
  cases hCheck : compiler.settings.check.outcome with
  | error problem =>
      exact ⟨_, Or.inl ⟨problem, rfl, rfl⟩⟩
  | ok _ =>
      cases hGraph : Graph.ofDescription description with
      | ok graph =>
          exact absurd
            (Graph.exists_ofDescription_iff_isLinked.mp
              ⟨graph, hGraph⟩) hUnlinked
      | error error =>
          rcases Graph.ofDescription_eq_error hGraph with
            ⟨problem, rfl⟩
          exact ⟨problem, Or.inr ⟨rfl, Or.inl rfl⟩⟩

/-
  Connections of different nodes do not depend on one another.
  Two descriptions whose connections lead the same ways either
  both become the same script, or both fail with an error of
  one kind. If the connections join nodes, nothing at all can
  be told apart: what is reported is the same, and so is the
  error, with the same nodes that wait for ever. If not, both
  are refused for it, each for a connection of its own.
-/
theorem compile_rewiring
    (compiler : Compiler)
    (description other : Description)
    (hSame : description.IsRewiring other) :
    ((∃ script,
        (compiler.compile description).outcome = .ok script ∧
          (compiler.compile other).outcome = .ok script) ∨
      ∃ error another,
        (compiler.compile description).outcome =
            .error error ∧
          (compiler.compile other).outcome = .error another ∧
          error.kind = another.kind ∧
          (error.kind = .cyclicGraph → error = another)) ∧
      (description.IsLinked →
        compiler.compile description =
          compiler.compile other) := by
  refine ⟨?_, compile_eq_of_isRewiring hSame⟩
  by_cases hLinked : description.IsLinked
  · have hEq :
        compiler.compile description = compiler.compile other :=
      compile_eq_of_isRewiring hSame hLinked
    cases hOther : (compiler.compile other).outcome with
    | ok script => exact Or.inl ⟨script, by rw [hEq, hOther], rfl⟩
    | error error =>
        exact Or.inr ⟨error, error, by rw [hEq, hOther], rfl,
          rfl, fun _ => rfl⟩
  · have hUnlinked : ¬ other.IsLinked := fun hOther =>
      hLinked (hSame.isLinked_iff.mpr hOther)
    rcases compiler.exists_validation_of_unlinked hLinked with
      ⟨problem, hError⟩
    rcases compiler.exists_validation_of_unlinked
        hUnlinked with
      ⟨another, hOther⟩
    refine Or.inr ⟨_, _, hError, hOther, rfl, ?_⟩
    intro hKind
    cases hKind

/- Two connections either way round: joined, dangling, looped. -/
theorem compile_of_swapped_connections :
    let base :=
      (((Description.empty.putNode ⟨"a"⟩ "DataLoader" .empty
        ).putNode ⟨"b"⟩ "DataLoader" .empty
        ).putNode ⟨"c"⟩ "ImageAugmentation" .empty
        ).putNode ⟨"d"⟩ "ModelTraining" .empty
    let forward (first second : Connection) : Description :=
      (base.putConnection ⟨"x"⟩ first).putConnection ⟨"y"⟩
        second
    let backward (first second : Connection) : Description :=
      (base.putConnection ⟨"y"⟩ second).putConnection ⟨"x"⟩
        first
    let compile := (ofSettings .standard).compile
    let toC : Connection := .between ⟨"a"⟩ ⟨"c"⟩
    let toD : Connection := .between ⟨"b"⟩ ⟨"d"⟩
    let toE : Connection := .between ⟨"b"⟩ ⟨"e"⟩
    let loop : Connection := .between ⟨"d"⟩ ⟨"d"⟩
    ((forward toC toD).IsRewiring (backward toC toD) ∧
        ∃ script,
          (compile (forward toC toD)).outcome = .ok script ∧
            (compile (backward toC toD)).outcome =
              .ok script) ∧
      ((forward toC toE).IsRewiring (backward toC toE) ∧
        ∃ error another,
          (compile (forward toC toE)).outcome = .error error ∧
            (compile (backward toC toE)).outcome =
              .error another ∧
            error.kind = another.kind) ∧
      (forward toC loop).IsRewiring (backward toC loop) ∧
        compile (forward toC loop) =
          compile (backward toC loop) := by
  intro base forward backward compile toC toD toE loop
  have hSwap (first second : Connection)
      (hSources : first.source ≠ second.source)
      (hTargets : first.target ≠ second.target) :
      (forward first second).IsRewiring
        (backward first second) :=
    Description.isRewiring_of_swap [] [] (⟨"x"⟩, first)
      (⟨"y"⟩, second) rfl rfl rfl rfl rfl hSources hTargets
  have hJoined := hSwap toC toD (by decide) (by decide)
  have hDangling := hSwap toC toE (by decide) (by decide)
  have hLooped := hSwap toC loop (by decide) (by decide)
  refine ⟨⟨hJoined, ?_⟩, ⟨hDangling, ?_⟩, hLooped, ?_⟩
  · have hCompile :
        ∃ script,
          (compile (forward toC toD)).outcome = .ok script := by
      apply exists_compile_of_rank fun id =>
        if id.text = "c" ∨ id.text = "d" then 1 else 0
      · rfl
      · rfl
      · decide
      · decide
      · exact ⟨by decide, by decide⟩
    rcases hCompile with ⟨script, hScript⟩
    rcases (compile_rewiring (ofSettings .standard) _ _
        hJoined).1 with
      ⟨same, hSame⟩ | ⟨error, _, hError, -⟩
    · exact ⟨same, hSame⟩
    · rw [hScript] at hError
      cases hError
  · have hUnlinked : ¬ (forward toC toE).IsLinked := by
      rw [Description.IsLinked]
      decide
    rcases exists_validation_of_unlinked
        (ofSettings .standard) hUnlinked with
      ⟨problem, hProblem⟩
    rcases (compile_rewiring (ofSettings .standard) _ _
        hDangling).1 with
      ⟨script, hScript, -⟩ | ⟨error, another, hError, hOther,
        hKind, -⟩
    · rw [hScript] at hProblem
      cases hProblem
    · exact ⟨error, another, hError, hOther, hKind⟩
  · apply (compile_rewiring (ofSettings .standard) _ _
      hLooped).2
    rw [Description.IsLinked]
    decide

end Compiler

end PipelineScript
