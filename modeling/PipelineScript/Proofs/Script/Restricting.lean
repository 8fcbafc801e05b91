import PipelineScript.Proofs.Graph.Restriction
import PipelineScript.Proofs.Script.Calls

/-
  Scripts of parts of descriptions.

  A generator is told nothing of the nodes that do not lead to
  its own. So a part that stands alone is made by the calls
  that made the whole, without those for the nodes outside.

  Key theorems include:
    * `Call.IsDue.restrict`
    * `Description.IsServed.restrict`
    * `Compiler.validate_restrict`
    * `Compiler.compile_restrict`
-/

namespace PipelineScript

variable {settings : Settings} {registry : Registry}
variable {description : Description}
variable {inside : NodeId → Bool}

------------------------------------------------------------
-- Calls for the Nodes of a Part
------------------------------------------------------------

namespace Description

/- What leads to a node of the set comes from the set. -/
theorem StandsAlone.of_mem_sourcesOf
    (hAlone : description.StandsAlone inside)
    {id source : NodeId}
    (hInside : inside id)
    (hSource : source ∈ description.sourcesOf id) :
    inside source := by
  rcases List.mem_map.mp hSource with
    ⟨connection, hConnection, rfl⟩
  rw [List.mem_filter, beq_iff_eq] at hConnection
  apply hAlone connection hConnection.1
  rw [hConnection.2]
  exact hInside

/- A node of the set has the same name in the part. -/
theorem nameOf?_restrict
    {id : NodeId}
    (hInside : inside id) :
    (description.restrict inside).nameOf? id =
      description.nameOf? id := by
  rw [nameOf?, nameOf?, get?_restrict hInside]

/- The names of a part are some of the names of the whole. -/
theorem nodeNames_restrict_sublist
    (description : Description)
    (inside : NodeId → Bool) :
    (description.restrict inside).nodeNames.Sublist
      description.nodeNames :=
  List.filter_sublist.map _

/- Names that are apart are apart in every part. -/
theorem IsWellNamed.restrict
    (hNamed : description.IsWellNamed) :
    (description.restrict inside).IsWellNamed := by
  have hSublist :=
    description.nodeNames_restrict_sublist inside
  constructor
  · exact hNamed.1.sublist hSublist
  · intro name hName
    exact hNamed.2 name (hSublist.subset hName)

end Description

/- Of a node of the set the same is told in the part. -/
theorem Request.IsFor.restrict
    {request : Request}
    (hAlone : description.StandsAlone inside)
    (hFor : request.IsFor settings description)
    (hInside : inside request.id) :
    request.IsFor settings (description.restrict inside) where
  node_eq := by
    rw [Description.get?_restrict hInside]
    exact hFor.node_eq
  name_eq := hFor.name_eq
  inputs_eq := by
    rw [Description.sourcesOf_restrict hAlone hInside,
      hFor.inputs_eq]
    apply List.map_congr_left
    intro source hSource
    exact (Description.nameOf?_restrict
      (hAlone.of_mem_sourcesOf hInside hSource)).symm
  layout_eq := hFor.layout_eq

/- A call for a node of the set is due in the part. -/
theorem Call.IsDue.restrict
    {call : Call}
    (hAlone : description.StandsAlone inside)
    (hDue : call.IsDue settings registry description)
    (hInside : inside call.request.id) :
    call.IsDue settings registry
      (description.restrict inside) where
  isFor := hDue.isFor.restrict hAlone hInside
  generated_eq := hDue.generated_eq

/- The keys of the calls for a part. -/
theorem Call.ids_filter
    (calls : List Call)
    (inside : NodeId → Bool) :
    ((calls.filter fun call => inside call.request.id).map
        fun call => call.request.id) =
      (calls.map fun call => call.request.id).filter
        inside := by
  rw [List.filter_map]
  rfl

/- The calls for a part ask for some of the imports. -/
theorem Call.requests_filter_subset
    (settings : Settings)
    (calls : List Call)
    (inside : NodeId → Bool) :
    (settings.imports.defaults
        ++ (calls.filter fun call =>
            inside call.request.id).flatMap
          (Call.requests settings)) ⊆
      settings.imports.defaults
        ++ calls.flatMap (Call.requests settings) := by
  intro request hRequest
  rw [List.mem_append] at hRequest ⊢
  rcases hRequest with hDefault | hRequest
  · exact Or.inl hDefault
  · rcases List.mem_flatMap.mp hRequest with
      ⟨call, hCall, hOwn⟩
    exact Or.inr (List.mem_flatMap.mpr
      ⟨call, (List.mem_filter.mp hCall).1, hOwn⟩)

/- The calls that serve the whole serve a part of it. -/
theorem Description.IsServed.restrict
    {calls : List Call}
    (hAlone : description.StandsAlone inside)
    (hServed : description.IsServed settings registry calls) :
    (description.restrict inside).IsServed settings registry
      (calls.filter fun call => inside call.request.id) where
  perm := by
    rw [Call.ids_filter, Description.keys_restrict]
    exact hServed.perm.filter inside
  isDue := by
    intro call hCall
    rw [List.mem_filter] at hCall
    exact (hServed.isDue call hCall.1).restrict hAlone hCall.2
  agree :=
    hServed.agree.of_subset
      (List.map_subset _
        (Call.requests_filter_subset settings calls inside))

------------------------------------------------------------
-- Scripts of Parts
------------------------------------------------------------

namespace Compiler

variable {compiler : Compiler}

/- An order is given where there is a graph that has one. -/
theorem validate_eq_ok_iff
    {ids : List NodeId} :
    compiler.validate description = .ok ids ↔
      ∃ graph order,
        Graph.ofDescription description = .ok graph ∧
          graph.order = .ok order ∧
          graph.idsAt order = ids := by
  unfold validate
  constructor
  · intro hValid
    rcases bind_eq_ok.mp hValid with ⟨graph, hGraph, hRest⟩
    rcases bind_eq_ok.mp hRest with ⟨order, hOrder, hIds⟩
    exact ⟨graph, order, hGraph, hOrder,
      Except.ok.injEq _ _ ▸ hIds⟩
  · rintro ⟨graph, order, hGraph, hOrder, rfl⟩
    exact bind_eq_ok.mpr ⟨graph, hGraph,
      bind_eq_ok.mpr ⟨order, hOrder, rfl⟩⟩

/- A check fails where the graph cannot be made or ordered. -/
theorem validate_eq_error_iff
    {error : CompileError} :
    compiler.validate description = .error error ↔
      Graph.ofDescription description = .error error ∨
        ∃ graph,
          Graph.ofDescription description = .ok graph ∧
            graph.order = .error error := by
  unfold validate
  simp only [bind_eq_error, pure, Except.pure, reduceCtorEq,
    and_false, exists_false, or_false]

/- The order of a part is that of the whole, filtered. -/
theorem validate_restrict
    (hAlone : description.StandsAlone inside)
    {ids : List NodeId}
    (hValid : compiler.validate description = .ok ids) :
    compiler.validate (description.restrict inside) =
      .ok (ids.filter inside) := by
  rcases validate_eq_ok_iff.mp hValid with
    ⟨graph, order, hGraph, hOrder, rfl⟩
  have hLinked :=
    Graph.exists_ofDescription_iff_isLinked.mp ⟨graph, hGraph⟩
  rcases Graph.exists_ofDescription_iff_isLinked.mpr
      (Description.isLinked_restrict hLinked) with
    ⟨part, hPart⟩
  rcases Graph.order_restrict hGraph hPart hAlone hOrder with
    ⟨order', hOrder', hIds⟩
  exact validate_eq_ok_iff.mpr
    ⟨part, order', hPart, hOrder', hIds⟩

/-
  A part that stands alone becomes a script if the whole does.
  It has the nodes of the whole that are in the part, in the
  order of the whole. Every one of them has the same name, and
  the same call made its lines. The part imports nothing that
  the whole does not.
-/
theorem compile_restrict
    (compiler : Compiler)
    (description : Description)
    (inside : NodeId → Bool)
    (hAlone : description.StandsAlone inside)
    (script : Script)
    (hCompile :
      (compiler.compile description).outcome = .ok script) :
    ∃ part calls,
      (compiler.compile
          (description.restrict inside)).outcome =
          .ok part ∧
        part.order = script.order.filter inside ∧
        part.names =
          script.names.filter (fun entry => inside entry.1) ∧
        script.IsThreaded compiler.settings compiler.registry
          description calls
          (Assembly.assemble compiler.settings
            compiler.registry description).events ∧
        part.IsThreaded compiler.settings compiler.registry
          (description.restrict inside)
          (calls.filter fun call => inside call.request.id)
          (Assembly.assemble compiler.settings
            compiler.registry
            (description.restrict inside)).events ∧
        part.imports.directives ⊆ script.imports.directives := by
  rcases exists_compile_iff_isServed.mp ⟨script, hCompile⟩ with
    ⟨hCheck, hLinked, hAcyclic, hNamed, -⟩
  rcases exists_calls hCompile with
    ⟨calls, hThreaded, hServed, -, hImports⟩
  have hPartServed := hServed.restrict hAlone
  rcases exists_compile_of_isServed hCheck
      (Description.isLinked_restrict hLinked)
      (Description.isAcyclic_restrict hAcyclic)
      hNamed.restrict hPartServed with
    ⟨part, hPart⟩
  rcases exists_calls hPart with
    ⟨partCalls, hPartThreaded, -, -, hPartImports⟩
  -- Both scripts have an order, and so the calls are the same.
  have hIds := validate_restrict hAlone hThreaded.isSorted
  rw [hPartThreaded.isSorted, Except.ok.injEq,
    ← Call.ids_filter] at hIds
  have hCalls :
      partCalls =
        calls.filter fun call => inside call.request.id :=
    Call.eq_of_ids_eq hPartThreaded.isDue hPartServed.isDue hIds
  subst hCalls
  refine ⟨part, calls, hPart, ?_, ?_, hThreaded, hPartThreaded,
    ?_⟩
  · rw [hPartThreaded.order_eq, hThreaded.order_eq,
      Call.ids_filter]
  · rw [hPartThreaded.names_eq, hThreaded.names_eq,
      List.filter_map]
    rfl
  · intro kept hKept
    rw [hImports]
    exact List.map_subset _
      (Call.requests_filter_subset _ calls inside)
      ((hPartImports kept).mp hKept)

/- A way from one loader, beside one from another. -/
theorem compile_restrict_of_two_ways :
    let whole : Description :=
      { pipelineId := none
        nodes :=
          ⟨[(⟨"c"⟩, ⟨.imageAugmentation, .empty⟩),
            (⟨"a"⟩, ⟨.dataLoader, .empty⟩),
            (⟨"b"⟩, ⟨.dataLoader, .empty⟩),
            (⟨"d"⟩, ⟨.modelTraining, .empty⟩)], by decide⟩
        connections :=
          ⟨[(⟨"x"⟩, .between ⟨"c"⟩ ⟨"d"⟩),
            (⟨"y"⟩, .between ⟨"b"⟩ ⟨"c"⟩),
            (⟨"z"⟩, .between ⟨"a"⟩ ⟨"d"⟩)], by decide⟩
        remarks := [] }
    let inside : NodeId → Bool :=
      fun id => id.text == "b" || id.text == "c"
    let compile := (ofSettings .standard).compile
    whole.StandsAlone inside ∧
      ∃ script part,
        (compile whole).outcome = .ok script ∧
          (compile (whole.restrict inside)).outcome =
            .ok part ∧
          part.order = script.order.filter inside ∧
          part.names =
            script.names.filter (fun entry =>
              inside entry.1) := by
  intro whole inside compile
  have hAlone : whole.StandsAlone inside := by
    rw [Description.StandsAlone]
    decide
  have hCompile :
      ∃ script, (compile whole).outcome = .ok script := by
    refine exists_compile rfl rfl ?_ ?_ ?_ ?_ ⟨?_, ?_⟩
    · rw [Description.IsLinked]
      decide
    · apply Description.isAcyclic_of_rank fun id =>
        if id.text = "d" then 2
        else if id.text = "c" then 1
        else 0
      decide
    · decide
    · decide
    · decide
    · decide
  rcases hCompile with ⟨script, hScript⟩
  rcases compile_restrict (ofSettings .standard) whole inside
      hAlone script hScript with
    ⟨part, calls, hPart, hOrder, hNames, -⟩
  exact ⟨hAlone, script, part, hScript, hPart, hOrder, hNames⟩

end Compiler

end PipelineScript
