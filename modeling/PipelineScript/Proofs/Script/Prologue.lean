import PipelineScript.Proofs.Import.Spelling
import PipelineScript.Proofs.Script.Importing
import PipelineScript.Proofs.Script.Reporting
import PipelineScript.Proofs.Script.Validating

/-
  Whether the routine of a script finds what chooses its
  device.

  The routine begins with a statement that looks a package up
  by its name. A check of the settings reports where the
  package is missing, and it looks at nothing but the spelling
  of the default imports. What the name refers to is decided
  by the statements that come of all imports.

  Key definitions include:
    * `Description.requestsFor`

  Key theorems include:
    * `Compiler.directives_of_compile`
    * `Compiler.prologue_is_served_iff`
-/

namespace PipelineScript

variable {settings : Settings} {description : Description}

/- What the node under a key asks for in a script. -/
def Description.requestsOf
    (settings : Settings)
    (description : Description)
    (id : NodeId) : List Directive :=
  match description.nodes.get? id with
  | none => []
  | some node =>
      node.kind.imports ++ settings.imports.forTag node.kind.tag

/- What a script asks for if its nodes stand in some order. -/
def Description.requestsFor
    (settings : Settings)
    (description : Description)
    (ids : List NodeId) : List Directive :=
  settings.imports.defaults
    ++ ids.flatMap (description.requestsOf settings)

/- What a built-in generator asks for, its node asks for. -/
theorem Call.IsDue.requests_eq
    {call : Call}
    (hDue : call.IsDue settings .standard description) :
    call.requests settings =
      description.requestsOf settings call.request.id := by
  have hGenerate :
      (Registry.standard.generate call.request).outcome =
        .ok call.generated := by
    rw [Registry.outcome_generate]
    exact hDue.generated_eq
  rw [Call.requests, Description.requestsOf, hDue.isFor.node_eq,
    (Registry.becomes_of_generate hGenerate).2]

namespace Compiler

variable {script : Script}

/- A script imports what its nodes ask for, in their order. -/
theorem directives_of_compile
    (hCompile :
      ((ofSettings settings).compile description).outcome =
        .ok script) :
    script.imports.directives =
      ImportBlock.firsts
        (description.requestsFor settings script.order) := by
  rcases exists_calls hCompile with ⟨calls, hThreaded, -⟩
  have hRequests :
      calls.flatMap (Call.requests settings) =
        script.order.flatMap (description.requestsOf settings) := by
    rw [hThreaded.order_eq, List.flatMap_map]
    exact List.flatMap_congr fun call hCall =>
      (hThreaded.isDue call hCall).requests_eq
  have hImports :=
    (imports_of_calls hThreaded.isSorted hThreaded.isDue
      hCompile).1
  rw [ImportBlock.ofDirectives_eq_ok_iff] at hImports
  rw [hImports.2, Description.requestsFor, ← hRequests]
  rfl

/-
  Where the routine chooses a device, two things are expected:
  that a package which is not reported as missing is there
  under its name, and that one which is imported plainly is
  not reported. They hold exactly if the spelling of the
  default imports tells what the check takes it to tell. Where
  one of them is spelled like the package, all import lines
  have to be statements, and the last of them that binds the
  name has to bind it to the package. And where one of them
  comes to a plain import of the package, one of them has to
  be spelled like it.
-/
theorem prologue_is_served_iff
    (isName : String → Bool)
    (settings : Settings)
    (description : Description)
    (script : Script)
    (hDevice : settings.deviceSetup)
    (hCompile :
      ((ofSettings settings).compile description).outcome =
        .ok script) :
    let defaults := settings.imports.defaults
    let isReported : Prop :=
      .torchNotImported ∈
        ((ofSettings settings).compile description).events
    let isSpelled : Prop :=
      ∃ request ∈ defaults, request.path = "torch"
    let isPlain : Prop :=
      ∃ request ∈ defaults, request.normalized = .whole "torch"
    let lines :=
      (ImportBlock.firsts
        (description.requestsFor settings script.order)).map
        Directive.render
    ((¬ isReported →
        Scope.IsBoundBy isName script.imports.lines "torch"
          (.module "torch")) ∧
      (isPlain → ¬ isReported)) ↔
      (isSpelled →
        (∀ line ∈ lines, (Directive.read? isName line).isSome) ∧
          ((lines.filterMap
              (Directive.read? isName)).reverse.find?
              (·.boundName == "torch")).map Directive.asked =
            some (.module "torch")) ∧
        (isPlain → isSpelled) := by
  intro defaults isReported isSpelled isPlain lines
  have hReported : ¬ isReported ↔ isSpelled := by
    rw [show isReported ↔ _ from
        torchNotImported_mem_events_iff hCompile,
      Settings.lacksTorch_iff]
    simp [hDevice, isSpelled, defaults]
  have hLines : script.imports.lines = lines := by
    rw [ImportBlock.lines, directives_of_compile hCompile]
  rw [hReported, hLines, Scope.isBoundBy_iff]

/- A loader and a training, with the standard settings. -/
theorem compile_with_torch :
    let chain :=
      ((Description.empty.putNode ⟨"a"⟩ "DataLoader" .empty
        ).putNode ⟨"b"⟩ "ModelTraining" .empty
        ).connect ⟨"a"⟩ ⟨"b"⟩
    let compiler := ofSettings .standard
    ∃ script,
      (compiler.compile chain).outcome = .ok script ∧
        .torchNotImported ∉ (compiler.compile chain).events ∧
        Scope.IsBoundBy Text.isIdentifier script.imports.lines
          "torch" (.module "torch") := by
  intro chain compiler
  have hCompile :
      ∃ script, (compiler.compile chain).outcome = .ok script := by
    apply exists_compile_of_rank fun id =>
      if id.text = "b" then 1 else 0
    · rfl
    · rfl
    · decide
    · decide
    · exact ⟨by decide, by decide⟩
  rcases hCompile with ⟨script, hScript⟩
  have hValid :
      compiler.validate chain = .ok [⟨"a"⟩, ⟨"b"⟩] := by
    decide +kernel
  have hServed :=
    (prologue_is_served_iff Text.isIdentifier .standard chain
      script rfl hScript).mpr ?_
  · have hQuiet :
        .torchNotImported ∉ (compiler.compile chain).events :=
      hServed.2 (by decide)
    exact ⟨script, hScript, hQuiet, hServed.1 hQuiet⟩
  · rw [order_eq_of_validate hScript hValid]
    refine ⟨fun _ => ⟨?_, ?_⟩, fun _ => ?_⟩
    · decide +kernel
    · decide +kernel
    · decide

/-
  A package under another name, which is not reported, and a
  path with a space in front of it, which is.
-/
theorem compile_without_torch :
    let withDefault (request : Directive) : Settings :=
      { Settings.standard with
        imports := ⟨[request], Requirements.standardForTags⟩ }
    let renamed := withDefault (.aliased "torch" "t")
    let spaced := withDefault (.whole " torch")
    (∃ script,
      ((ofSettings renamed).compile .empty).outcome =
          .ok script ∧
        .torchNotImported ∉
          ((ofSettings renamed).compile .empty).events ∧
        ¬ Scope.IsBoundBy Text.isIdentifier
          script.imports.lines "torch" (.module "torch")) ∧
      ∃ script,
        ((ofSettings spaced).compile .empty).outcome =
            .ok script ∧
          Directive.normalized (.whole " torch") =
            .whole "torch" ∧
          .torchNotImported ∈
            ((ofSettings spaced).compile .empty).events := by
  intro withDefault renamed spaced
  have hStandard : Settings.standard.check.outcome = .ok () := rfl
  have hSound := Settings.check_eq_ok_iff.mp hStandard
  have hCheck (request : Directive) :
      (withDefault request).check.outcome = .ok () :=
    Settings.check_eq_ok_iff.mpr hSound
  rcases exists_compile_empty (hCheck (.aliased "torch" "t")) rfl
      ⟨by decide, by decide⟩ with
    ⟨first, hFirst⟩
  rcases exists_compile_empty (hCheck (.whole " torch")) rfl
      ⟨by decide, by decide⟩ with
    ⟨second, hSecond⟩
  refine ⟨⟨first, hFirst, ?_, ?_⟩, second, hSecond, by decide, ?_⟩
  · rw [torchNotImported_mem_events_iff hFirst]
    decide
  · have hLines :
        first.imports.lines = ["import torch as t"] := by
      have hValid :
          (ofSettings renamed).validate .empty = .ok [] := by
        decide +kernel
      rw [ImportBlock.lines, directives_of_compile hFirst,
        order_eq_of_validate hFirst hValid]
      decide
    rw [hLines, Scope.isBoundBy_iff]
    decide
  · rw [torchNotImported_mem_events_iff hSecond]
    decide

end Compiler

end PipelineScript
