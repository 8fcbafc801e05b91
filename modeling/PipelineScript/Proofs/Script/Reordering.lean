import PipelineScript.Proofs.Description.Restriction
import PipelineScript.Proofs.Graph.Waiting
import PipelineScript.Proofs.Script.Calls
import PipelineScript.Proofs.Script.Statistics

/-
  Scripts of descriptions that have the same nodes in another
  order.

  Nothing that is told of a node or asked for by it depends on
  where the node was declared. So the same calls make both
  scripts, and only the order of blocks and of imports may
  differ. What is wrong with the one description is wrong with
  the other.

  Key definitions include:
    * `Description.IsReordering`

  Key theorems include:
    * `Graph.ofDescription_eq_error_of_isReordering`
    * `Description.IsServed.reorder`
    * `Compiler.calls_perm`
    * `Compiler.compile_reordering`
-/

namespace PipelineScript

variable {settings : Settings} {registry : Registry}
variable {description other : Description}

------------------------------------------------------------
-- The Same Nodes
------------------------------------------------------------

namespace Description

/-
  One description has the nodes of another under the same keys
  in whatever order, and the same connections.
-/
structure IsReordering
    (description other : Description) : Prop where
  nodes_perm :
    description.nodes.entries.Perm other.nodes.entries
  connections_eq : description.connections = other.connections

namespace IsReordering

/- What is a reordering of another has it as a reordering. -/
theorem symm
    (hSame : description.IsReordering other) :
    other.IsReordering description where
  nodes_perm := hSame.nodes_perm.symm
  connections_eq := hSame.connections_eq.symm

/- The keys are the same. -/
theorem keys_perm
    (hSame : description.IsReordering other) :
    description.nodes.keys.Perm other.nodes.keys :=
  hSame.nodes_perm.map Prod.fst

/- The nodes are the same. -/
theorem values_perm
    (hSame : description.IsReordering other) :
    description.nodes.values.Perm other.nodes.values :=
  hSame.nodes_perm.map Prod.snd

/- Every key has the same node. -/
theorem get?_eq
    (hSame : description.IsReordering other)
    (id : NodeId) :
    description.nodes.get? id = other.nodes.get? id := by
  apply Option.ext
  intro record
  rw [Table.get?_eq_some_iff, Table.get?_eq_some_iff,
    hSame.nodes_perm.mem_iff]

/- Every key has the same name. -/
theorem nameOf?_eq
    (hSame : description.IsReordering other) :
    description.nameOf? = other.nameOf? := by
  funext id
  rw [nameOf?, nameOf?, hSame.get?_eq]

/- The same leads to every key. -/
theorem sourcesOf_eq
    (hSame : description.IsReordering other) :
    description.sourcesOf = other.sourcesOf := by
  funext id
  rw [sourcesOf, sourcesOf, hSame.connections_eq]

/- Every key leads to the same. -/
theorem targetsOf_eq
    (hSame : description.IsReordering other) :
    description.targetsOf = other.targetsOf := by
  funext id
  rw [targetsOf, targetsOf, hSame.connections_eq]

/- The same keys lead to one another. -/
theorem leads_eq
    (hSame : description.IsReordering other) :
    description.Leads = other.Leads := by
  funext source target
  rw [Leads, Leads, hSame.connections_eq]

/- Links do not depend on the order of the nodes. -/
theorem isLinked
    (hSame : description.IsReordering other)
    (hLinked : description.IsLinked) :
    other.IsLinked := by
  intro connection hConnection
  rw [← hSame.connections_eq] at hConnection
  rw [← hSame.keys_perm.mem_iff, ← hSame.keys_perm.mem_iff]
  exact hLinked connection hConnection

/- Nor do cycles. -/
theorem isAcyclic
    (hSame : description.IsReordering other)
    (hAcyclic : description.IsAcyclic) :
    other.IsAcyclic := by
  rw [IsAcyclic, ← hSame.leads_eq]
  exact hAcyclic

/- The same nodes wait for ever. -/
theorem waitsForEver_eq
    (hSame : description.IsReordering other) :
    description.WaitsForEver = other.WaitsForEver := by
  funext id
  rw [WaitsForEver, WaitsForEver, hSame.leads_eq]

/- Names that are apart stay apart. -/
theorem isWellNamed
    (hSame : description.IsReordering other)
    (hNamed : description.IsWellNamed) :
    other.IsWellNamed := by
  have hNames :
      description.nodeNames.Perm other.nodeNames :=
    hSame.nodes_perm.map _
  constructor
  · exact hNames.nodup_iff.mp hNamed.1
  · intro name hName
    exact hNamed.2 name (hNames.mem_iff.mpr hName)

/- The counts are the same. -/
theorem statistics_eq
    (hSame : description.IsReordering other)
    (registry : Registry)
    (imports : Nat) :
    description.statistics registry imports =
      other.statistics registry imports := by
  rw [statistics, statistics, hSame.keys_perm.length_eq,
    hSame.keys_perm.countP_eq, hSame.keys_perm.countP_eq,
    hSame.values_perm.countP_eq, hSame.sourcesOf_eq,
    hSame.targetsOf_eq]

end IsReordering

end Description

------------------------------------------------------------
-- The Same Ends That Lead Nowhere
------------------------------------------------------------

namespace Graph

variable {keys others : List NodeId}

/- Among the same keys the same connection leads nowhere. -/
theorem edgesOf_eq_error_congr
    (hSame : ∀ id, id ∈ keys ↔ id ∈ others)
    {entries : List (ConnectionId × Connection)}
    {error : CompileError}
    (hError : edgesOf keys entries = .error error) :
    edgesOf others entries = .error error := by
  simpa only [edgesOf_eq_error_iff, edgeOf_eq_error_iff, hSame]
    using hError

/- A reordering fails for the same connection. -/
theorem ofDescription_eq_error_of_isReordering
    (hSame : description.IsReordering other)
    {error : CompileError}
    (hError : ofDescription description = .error error) :
    ofDescription other = .error error := by
  simp only [ofDescription, bind_eq_error, reduceCtorEq,
    and_false, exists_false, or_false] at hError ⊢
  rw [← hSame.connections_eq]
  exact edgesOf_eq_error_congr
    (fun _ => hSame.keys_perm.mem_iff) hError

end Graph

------------------------------------------------------------
-- The Same Calls
------------------------------------------------------------

/- The same is told of every node. -/
theorem Request.IsFor.reorder
    {request : Request}
    (hSame : description.IsReordering other)
    (hFor : request.IsFor settings description) :
    request.IsFor settings other where
  node_eq := by
    rw [← hSame.get?_eq]
    exact hFor.node_eq
  name_eq := hFor.name_eq
  inputs_eq := by
    rw [← hSame.sourcesOf_eq, ← hSame.nameOf?_eq]
    exact hFor.inputs_eq
  layout_eq := hFor.layout_eq

/- The same calls are due. -/
theorem Call.IsDue.reorder
    {call : Call}
    (hSame : description.IsReordering other)
    (hDue : call.IsDue settings registry description) :
    call.IsDue settings registry other where
  isFor := hDue.isFor.reorder hSame
  generated_eq := hDue.generated_eq

/- The same calls serve all nodes. -/
theorem Description.IsServed.reorder
    {calls : List Call}
    (hSame : description.IsReordering other)
    (hServed : description.IsServed settings registry calls) :
    other.IsServed settings registry calls where
  perm := hServed.perm.trans hSame.keys_perm
  isDue := fun call hCall =>
    (hServed.isDue call hCall).reorder hSame
  agree := hServed.agree

/- Only one call for each node serves a description. -/
theorem Description.IsServed.perm_of_isServed
    {first second : List Call}
    (hFirst : description.IsServed settings registry first)
    (hSecond : description.IsServed settings registry second) :
    first.Perm second := by
  have hNodup :
      ∀ {calls : List Call},
        description.IsServed settings registry calls →
          calls.Nodup := by
    intro calls hServed
    exact List.Nodup.of_map _
      (hServed.perm.nodup_iff.mpr description.nodes.distinct)
  -- A call of one list stands in the other, as it is due there.
  have hSubset :
      ∀ {calls more : List Call},
        description.IsServed settings registry calls →
          description.IsServed settings registry more →
            calls ⊆ more := by
    intro calls more hCalls hMore call hCall
    have hId :
        call.request.id ∈
          more.map fun call => call.request.id := by
      rw [hMore.perm.mem_iff, ← hCalls.perm.mem_iff]
      exact List.mem_map_of_mem hCall
    rcases List.mem_map.mp hId with ⟨same, hMem, hEq⟩
    rw [← (hMore.isDue same hMem).eq_of_id_eq
      (hCalls.isDue call hCall) hEq]
    exact hMem
  rw [List.perm_ext_iff_of_nodup (hNodup hFirst)
    (hNodup hSecond)]
  intro call
  exact ⟨fun hCall => hSubset hFirst hSecond hCall,
    fun hCall => hSubset hSecond hFirst hCall⟩

/- Scripts of the same calls give every node the same name. -/
theorem Script.IsThreaded.name?_eq
    {script another : Script}
    {calls more : List Call}
    {events moreEvents : List Event}
    (hScript :
      script.IsThreaded settings registry description calls
        events)
    (hOther :
      another.IsThreaded settings registry other more
        moreEvents)
    (hPerm : calls.Perm more)
    (id : NodeId) :
    script.name? id = another.name? id := by
  have hDistinct :
      ∀ {description : Description} {script : Script}
          {calls : List Call} {events : List Event},
        script.IsThreaded settings registry description calls
            events →
          (Entries.keys script.names).Nodup := by
    intro description script calls events hThreaded
    rw [hThreaded.names_eq, Entries.keys, List.map_map]
    exact hThreaded.perm.nodup_iff.mpr
      description.nodes.distinct
  apply Option.ext
  intro name
  rw [Script.name?, Script.name?,
    Entries.lookup_eq_some_iff_mem (hDistinct hScript),
    Entries.lookup_eq_some_iff_mem (hDistinct hOther),
    hScript.names_eq, hOther.names_eq]
  exact (hPerm.map _).mem_iff

------------------------------------------------------------
-- Scripts of Reorderings
------------------------------------------------------------

namespace Compiler

variable {compiler : Compiler}

/- A reordering of what becomes a script becomes one. -/
theorem exists_compile_of_isReordering
    (hSame : description.IsReordering other)
    (hCompile :
      ∃ script,
        (compiler.compile description).outcome =
          .ok script) :
    ∃ script,
      (compiler.compile other).outcome = .ok script := by
  rcases exists_compile_iff_isServed.mp hCompile with
    ⟨hCheck, hLinked, hAcyclic, hNamed, calls, hServed⟩
  exact exists_compile_of_isServed hCheck
    (hSame.isLinked hLinked) (hSame.isAcyclic hAcyclic)
    (hSame.isWellNamed hNamed) (hServed.reorder hSame)

/-
  Two scripts of the same nodes are made by the same calls.
  They have the same imports, and they count the same.
-/
theorem calls_perm
    (hSame : description.IsReordering other)
    {script another : Script}
    (hScript :
      (compiler.compile description).outcome = .ok script)
    (hOther :
      (compiler.compile other).outcome = .ok another) :
    (∃ calls more,
      calls.Perm more ∧
        script.IsThreaded compiler.settings compiler.registry
          description calls
          (Assembly.assemble compiler.settings
            compiler.registry description).events ∧
        another.IsThreaded compiler.settings compiler.registry
          other more
          (Assembly.assemble compiler.settings
            compiler.registry other).events) ∧
      script.imports.directives.Perm
        another.imports.directives := by
  rcases exists_calls hScript with
    ⟨calls, hThreaded, hServed, -, hImports⟩
  rcases exists_calls hOther with
    ⟨more, hThreaded', hServed', -, hImports'⟩
  have hCalls : calls.Perm more :=
    (hServed.reorder hSame).perm_of_isServed hServed'
  refine ⟨⟨calls, more, hCalls, hThreaded, hThreaded'⟩, ?_⟩
  rw [List.perm_ext_iff_of_nodup
    (List.Nodup.of_map _ script.imports.nodup_paths)
    (List.Nodup.of_map _ another.imports.nodup_paths)]
  intro kept
  rw [hImports, hImports']
  exact (((hCalls.flatMap_right _).append_left _).map
    _).mem_iff

/- A description that is not linked fails as its reorderings. -/
theorem exists_dangling_of_isReordering
    (hCheck : compiler.settings.check.outcome = .ok ())
    (hSame : description.IsReordering other)
    (hUnlinked : ¬ description.IsLinked) :
    ∃ problem,
      (compiler.compile description).outcome =
          .error (.validation problem) ∧
        (compiler.compile other).outcome =
          .error (.validation problem) := by
  cases hGraph : Graph.ofDescription description with
  | ok graph =>
      exact absurd
        (Graph.exists_ofDescription_iff_isLinked.mp
          ⟨graph, hGraph⟩) hUnlinked
  | error error =>
      rcases Graph.ofDescription_eq_error hGraph with
        ⟨problem, rfl⟩
      refine ⟨problem, ?_, ?_⟩
      · rw [compile_eq_error_iff]
        exact Assembly.assemble_eq_error_of_ofDescription hCheck
          hGraph
      · rw [compile_eq_error_iff]
        exact Assembly.assemble_eq_error_of_ofDescription hCheck
          (Graph.ofDescription_eq_error_of_isReordering hSame
            hGraph)

/- What has a cycle fails with the nodes that wait for ever. -/
theorem exists_waiting_of_cycle
    (hCheck : compiler.settings.check.outcome = .ok ())
    (hLinked : description.IsLinked)
    (hCyclic : ¬ description.IsAcyclic) :
    ∃ waiting : List NodeId,
      (compiler.compile description).outcome =
          .error (.cyclicGraph (waiting.map NodeId.text)) ∧
        waiting.Nodup ∧
        ∀ id, id ∈ waiting ↔ description.WaitsForEver id := by
  rcases Graph.exists_ofDescription_iff_isLinked.mpr
      hLinked with
    ⟨graph, hGraph⟩
  rcases Graph.exists_order_eq_cyclicGraph hGraph hCyclic with
    ⟨waiting, hOrder, hNodup, hMem⟩
  refine ⟨waiting, ?_, hNodup, hMem⟩
  rw [compile_eq_error_iff]
  exact Assembly.assemble_eq_error_of_order hCheck hGraph hOrder

/-
  The order in which nodes are declared decides the order of
  blocks and imports, and nothing else. Of two descriptions
  that differ in it alone either both become scripts or none.
  The scripts are made by the same calls: every node has the
  same name and the same lines. They import the same and have
  the same counts. A connection that leads nowhere is told in
  the same way, and of cycles the same nodes are told.
-/
theorem compile_reordering
    (compiler : Compiler)
    (description other : Description)
    (hCheck : compiler.settings.check.outcome = .ok ())
    (hSame : description.IsReordering other) :
    ((∃ script,
        (compiler.compile description).outcome = .ok script) ↔
      ∃ script,
        (compiler.compile other).outcome = .ok script) ∧
      (∀ script another,
        (compiler.compile description).outcome = .ok script →
        (compiler.compile other).outcome = .ok another →
        (∃ calls more,
          calls.Perm more ∧
            script.IsThreaded compiler.settings
              compiler.registry description calls
              (Assembly.assemble compiler.settings
                compiler.registry description).events ∧
            another.IsThreaded compiler.settings
              compiler.registry other more
              (Assembly.assemble compiler.settings
                compiler.registry other).events) ∧
          (∀ id, script.name? id = another.name? id) ∧
          script.imports.directives.Perm
            another.imports.directives ∧
          script.statistics = another.statistics) ∧
      (¬ description.IsLinked →
        ∃ problem,
          (compiler.compile description).outcome =
              .error (.validation problem) ∧
            (compiler.compile other).outcome =
              .error (.validation problem)) ∧
      (description.IsLinked → ¬ description.IsAcyclic →
        ∃ waiting more,
          waiting.Perm more ∧
            (compiler.compile description).outcome =
              .error (.cyclicGraph waiting) ∧
            (compiler.compile other).outcome =
              .error (.cyclicGraph more)) := by
  refine ⟨⟨?_, ?_⟩, ?_, ?_, ?_⟩
  · exact exists_compile_of_isReordering hSame
  · exact exists_compile_of_isReordering hSame.symm
  · intro script another hScript hOther
    rcases calls_perm hSame hScript hOther with
      ⟨⟨calls, more, hCalls, hThreaded, hThreaded'⟩, hImports⟩
    refine ⟨⟨calls, more, hCalls, hThreaded, hThreaded'⟩, ?_,
      hImports, ?_⟩
    · exact hThreaded.name?_eq hThreaded' hCalls
    · rw [statistics_of_compile hScript,
        statistics_of_compile hOther, hSame.statistics_eq,
        ImportBlock.size_eq, ImportBlock.size_eq,
        hImports.length_eq]
  · exact exists_dangling_of_isReordering hCheck hSame
  · intro hLinked hCyclic
    have hOther : ¬ other.IsAcyclic := fun hAcyclic =>
      hCyclic (hSame.symm.isAcyclic hAcyclic)
    rcases exists_waiting_of_cycle hCheck hLinked hCyclic with
      ⟨waiting, hError, hNodup, hMem⟩
    rcases exists_waiting_of_cycle hCheck
        (hSame.isLinked hLinked) hOther with
      ⟨more, hError', hNodup', hMem'⟩
    have hPerm : waiting.Perm more := by
      rw [List.perm_ext_iff_of_nodup hNodup hNodup']
      intro id
      rw [hMem, hMem', hSame.waitsForEver_eq]
    exact ⟨_, _, hPerm.map NodeId.text, hError, hError'⟩

/- Two nodes either way round: joined, dangling and looped. -/
theorem compile_of_two_nodes_reordered :
    let loader : NodeId × NodeRecord :=
      (⟨"a"⟩, ⟨.dataLoader, .empty⟩)
    let step : NodeId × NodeRecord :=
      (⟨"b"⟩, ⟨.imageAugmentation, .empty⟩)
    let forward : Description :=
      { Description.empty with
        nodes := ⟨[loader, step], by decide⟩ }
    let backward : Description :=
      { Description.empty with
        nodes := ⟨[step, loader], by decide⟩ }
    let joined : Description → Description :=
      (·.connect ⟨"a"⟩ ⟨"b"⟩)
    let dangling : Description → Description :=
      (·.connect ⟨"a"⟩ ⟨"c"⟩)
    let looped : Description → Description :=
      (·.connect ⟨"a"⟩ ⟨"a"⟩)
    let compile := (ofSettings .standard).compile
    (∃ script another,
      (compile (joined forward)).outcome = .ok script ∧
        (compile (joined backward)).outcome = .ok another ∧
        script.statistics = another.statistics) ∧
      (∃ problem,
        (compile (dangling forward)).outcome =
            .error (.validation problem) ∧
          (compile (dangling backward)).outcome =
            .error (.validation problem)) ∧
      ∃ waiting more,
        waiting.Perm more ∧
          (compile (looped forward)).outcome =
            .error (.cyclicGraph waiting) ∧
          (compile (looped backward)).outcome =
            .error (.cyclicGraph more) := by
  intro loader step forward backward joined dangling looped
    compile
  have hNodes :
      forward.nodes.entries.Perm backward.nodes.entries :=
    List.Perm.swap step loader []
  have hCompile :
      ∃ script,
        (compile (joined forward)).outcome = .ok script := by
    refine exists_compile rfl rfl ?_ ?_ ?_ ?_ ⟨?_, ?_⟩
    · rw [Description.IsLinked]
      decide
    · apply Description.isAcyclic_of_rank fun id =>
        if id.text = "b" then 1 else 0
      decide
    · decide
    · decide
    · decide
    · decide
  refine ⟨?_, ?_, ?_⟩
  · have hAll :=
      compile_reordering (ofSettings .standard) (joined forward)
        (joined backward) rfl ⟨hNodes, rfl⟩
    rcases hCompile with ⟨script, hScript⟩
    rcases hAll.1.mp ⟨script, hScript⟩ with ⟨another, hOther⟩
    exact ⟨script, another, hScript, hOther,
      (hAll.2.1 script another hScript hOther).2.2.2⟩
  · apply (compile_reordering (ofSettings .standard)
      (dangling forward) (dangling backward) rfl
      ⟨hNodes, rfl⟩).2.2.1
    rw [Description.IsLinked]
    decide
  · apply (compile_reordering (ofSettings .standard)
      (looped forward) (looped backward) rfl
      ⟨hNodes, rfl⟩).2.2.2
    · rw [Description.IsLinked]
      decide
    · intro hAcyclic
      apply hAcyclic ⟨"a"⟩
      apply Relation.TransGen.single
      exact ⟨.between ⟨"a"⟩ ⟨"a"⟩, by decide, rfl, rfl⟩

end Compiler

end PipelineScript
