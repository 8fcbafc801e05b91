import PipelineScript.Proofs.Script.Calls
import PipelineScript.Proofs.Script.ImportLines
import PipelineScript.Proofs.Script.NodeNames

/-
  Which imports of a script are hidden by its own names.

  A script names its routine and its nodes, and its imports
  bind names as well. Nothing keeps the two apart but how the
  names of nodes are made: with an underscore, which no import
  of a generator binds. So a name that both have comes from the
  settings: they name the routine, and they ask for the import.

  Key definitions include:
    * `Script.Shadows`

  Key theorems include:
    * `NodeKind.underscore_not_mem_boundName`
    * `Compiler.mem_names_iff`
    * `Compiler.shadows_iff_requested`
-/

namespace PipelineScript

/-
  A name that one of the imports binds and the script has for
  its routine or for a node.
-/
def Script.Shadows
    (entrypoint : String)
    (script : Script)
    (name : String) : Prop :=
  (name = entrypoint ∨ ∃ id, (id, name) ∈ script.names) ∧
    ∃ kept ∈ script.imports.directives, kept.boundName = name

/- No import of a generator binds a name like that of a node. -/
theorem NodeKind.underscore_not_mem_boundName
    (kind : NodeKind) :
    ∀ request ∈ kind.imports,
      '_' ∉ request.normalized.boundName.toList := by
  apply forall_mem_imports
  · decide
  · decide
  · decide

namespace Description

variable {settings : Settings} {description : Description}
variable {name : String}

/- The names of nodes are identifiers with an underscore. -/
theorem spec_of_mem_nodeNames
    (hName : name ∈ description.nodeNames) :
    Text.isIdentifier name ∧ '_' ∈ name.toList := by
  rcases List.mem_map.mp hName with ⟨⟨id, node⟩, -, rfl⟩
  exact ⟨isIdentifier_nodeName node.kind id,
    underscore_mem_nodeName node.kind id⟩

/- What binds the name of a node, the settings require. -/
theorem exists_request_iff_exists_required
    (hName : name ∈ description.nodeNames) :
    (∃ request ∈ description.requests settings,
        request.normalized.boundName = name) ↔
      ∃ request ∈ description.required settings,
        request.normalized.boundName = name := by
  constructor
  · rintro ⟨request, hRequest, rfl⟩
    rcases mem_requests_iff.mp hRequest with
      hRequired | ⟨node, -, hGenerator⟩
    · exact ⟨request, hRequired, rfl⟩
    · exact absurd (spec_of_mem_nodeNames hName).2
        (node.kind.underscore_not_mem_boundName request
          hGenerator)
  · rintro ⟨request, hRequired, hBound⟩
    exact ⟨request, mem_requests_iff.mpr (Or.inl hRequired),
      hBound⟩

end Description

namespace Compiler

variable {compiler : Compiler} {description : Description}
variable {script : Script} {name : String}

/- The names in a script are those of the nodes described. -/
theorem mem_names_iff
    (hCompile :
      (compiler.compile description).outcome = .ok script) :
    (∃ id, (id, name) ∈ script.names) ↔
      name ∈ description.nodeNames := by
  rcases exists_isMadeOf hCompile with ⟨graph, blocks, hMade⟩
  rw [← hMade.names_perm.mem_iff, hMade.names_eq]
  simp

/- A shadowed name is one that was asked for. -/
theorem shadows_iff_exists_request
    (hCompile :
      (compiler.compile description).outcome = .ok script)
    {requests : List Directive}
    (hImports :
      ∀ kept,
        kept ∈ script.imports.directives ↔
          kept ∈ requests.map Directive.normalized)
    {entrypoint : String} :
    script.Shadows entrypoint name ↔
      (name = entrypoint ∨ name ∈ description.nodeNames) ∧
        ∃ request ∈ requests,
          request.normalized.boundName = name := by
  simp only [Script.Shadows, mem_names_iff hCompile, hImports,
    List.mem_map, exists_exists_and_eq_and]

/-
  A script hides one of its imports exactly if something it
  imports was asked for under the name of the routine or of a
  node. The names of nodes are identifiers with an underscore
  that generated code does not use for itself, and imports
  under other names are safe from them. With the generators
  that are built in, only what the settings require can be
  hidden by a node.
-/
theorem shadows_iff_requested
    (compiler : Compiler)
    (description : Description)
    (script : Script)
    (hCompile :
      (compiler.compile description).outcome = .ok script) :
    let settings := compiler.settings
    let shadows := script.Shadows settings.entrypoint
    let binds (requests : List Directive) (name : String) : Prop :=
      ∃ request ∈ requests, request.normalized.boundName = name
    (∃ calls,
      description.IsServed settings compiler.registry calls ∧
        ∀ name,
          shadows name ↔
            (name = settings.entrypoint ∨
                name ∈ description.nodeNames) ∧
              binds
                (settings.imports.defaults
                  ++ calls.flatMap (Call.requests settings))
                name) ∧
      (∀ name,
        shadows name →
          Text.isIdentifier name ∧
            (name = settings.entrypoint ∨
              ('_' ∈ name.toList ∧ name ∉ reservedNames))) ∧
      (compiler.registry = .standard →
        ∀ name,
          shadows name ↔
            (name = settings.entrypoint ∧
                binds (description.requests settings) name) ∨
              (name ∈ description.nodeNames ∧
                binds (description.required settings) name)) := by
  intro settings shadows binds
  have hNamed := isWellNamed_of_compile hCompile
  refine ⟨?_, ?_, ?_⟩
  · rcases exists_calls hCompile with
      ⟨calls, -, hServed, -, hImports⟩
    exact ⟨calls, hServed, fun name =>
      shadows_iff_exists_request hCompile hImports⟩
  · rintro name ⟨rfl | hName, -⟩
    · exact ⟨(Settings.check_eq_ok_iff.mp
        (check_of_compile hCompile)).2, Or.inl rfl⟩
    · have hName := (mem_names_iff hCompile).mp hName
      have hShape :=
        Description.spec_of_mem_nodeNames hName
      exact ⟨hShape.1, Or.inr ⟨hShape.2, hNamed.2 name hName⟩⟩
  · intro hStandard name
    have hOwn : compiler = ofSettings settings := by
      cases compiler
      exact congrArg (Compiler.mk _) hStandard
    have hImports := mem_imports_of_compile (hOwn ▸ hCompile)
    refine (shadows_iff_exists_request hCompile hImports).trans ?_
    rw [or_and_right]
    exact or_congr_right (and_congr_right
      Description.exists_request_iff_exists_required)

/- A loader, a training, and a node that asks for an import. -/
theorem compile_without_shadows :
    let nodes :=
      ((Description.empty.putNode ⟨"a"⟩ "DataLoader" .empty
        ).putNode ⟨"b"⟩ "ModelTraining" .empty
        ).putNode ⟨"c"⟩ "LinearRegression" .empty
    let whole := nodes.connect ⟨"a"⟩ ⟨"b"⟩
    ∃ script,
      ((ofSettings .standard).compile whole).outcome =
          .ok script ∧
        ∀ name, ¬ script.Shadows "main" name := by
  intro nodes whole
  have hCompile :
      ∃ script,
        ((ofSettings .standard).compile whole).outcome =
          .ok script := by
    apply exists_compile_of_rank fun id =>
      if id.text = "b" then 1 else 0
    · rfl
    · rfl
    · decide
    · decide
    · exact ⟨by decide, by decide⟩
  rcases hCompile with ⟨script, hScript⟩
  refine ⟨script, hScript, ?_⟩
  intro name hShadows
  have hEither :=
    ((shadows_iff_requested (ofSettings .standard) whole script
      hScript).2.2 rfl name).mp hShadows
  rcases hEither with ⟨rfl, hBound⟩ | ⟨hName, hBound⟩
  · exact absurd hBound (by decide)
  · have hNone :
        ∀ name ∈ whole.nodeNames,
          ¬ ∃ request ∈ whole.required .standard,
            request.normalized.boundName = name := by
      decide
    exact hNone name hName hBound

/-
  A routine with the name of a package, and a node with the
  name of an import that another node asks for.
-/
theorem compile_with_shadows :
    let renamed : Settings :=
      { Settings.standard with entrypoint := "torch" }
    let pair :=
      (Description.empty.putNode ⟨"a"⟩ "LinearRegression" .empty
        ).putNode ⟨"model"⟩ "Linear" .empty
    (renamed.check.outcome = .ok () ∧
        ∃ script,
          ((ofSettings renamed).compile .empty).outcome =
              .ok script ∧
            script.Shadows "torch" "torch") ∧
      ∃ script,
        ((ofSettings .standard).compile pair).outcome =
            .ok script ∧
          script.Shadows "main" "linear_model" := by
  intro renamed pair
  have hCheck : renamed.check.outcome = .ok () :=
    Settings.check_eq_ok_iff.mpr ⟨by decide, by decide⟩
  have hPair :
      ∃ script,
        ((ofSettings .standard).compile pair).outcome =
          .ok script := by
    apply exists_compile_of_rank fun _ => 0
    · rfl
    · rfl
    · decide
    · decide
    · exact ⟨by decide, by decide⟩
  rcases exists_compile_empty hCheck rfl
      ⟨by decide, by decide⟩ with
    ⟨first, hFirst⟩
  rcases hPair with ⟨second, hSecond⟩
  refine ⟨⟨hCheck, first, hFirst, ?_⟩, second, hSecond, ?_⟩
  · rw [shadows_iff_exists_request hFirst
      (mem_imports_of_compile hFirst)]
    decide
  · rw [shadows_iff_exists_request hSecond
      (mem_imports_of_compile hSecond)]
    decide

end Compiler

end PipelineScript
