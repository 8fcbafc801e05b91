import PipelineScript.Proofs.Script.Raising
import PipelineScript.Proofs.Script.Threading

/-
  What becomes of scripts when names are checked strictly.

  The script that is made is the same, or there is none. There
  is none exactly if the script would raise an error for a
  name that it does not know, and the first node with such a
  name is told.

  Key definitions include:
    * `Settings.withStrict`
    * `Training.fault?`
    * `Description.faultAt?`

  Key theorems include:
    * `Registry.generate_strict`
    * `Assembly.visitAll_strict_eq_ok_iff`
    * `Assembly.visitAll_strict_of_fault`
    * `Request.fails_strictly_iff_raises`
    * `Compiler.strict_removes_raising_scripts`
-/

namespace PipelineScript

------------------------------------------------------------
-- Names of Models and Optimizers
------------------------------------------------------------

namespace Options

variable {ε : Type}

/- The text under a name, or the default if there is none. -/
def textUnder
    (key default : String)
    (options : Options) : String :=
  match options.get? key with
  | some (.text value) => value
  | _ => default

/- The options under a name, or none at all. -/
def optionsUnder
    (key : String)
    (options : Options) : Options :=
  match options.get? key with
  | some (.object members) => ⟨members⟩
  | _ => .empty

/- Reading a text finds the text. -/
theorem outcome_textOr
    (key default : String)
    (options : Options) :
    (options.textOr key default :
        Traced Event ε String).outcome =
      .ok (options.textUnder key default) := by
  unfold textOr getOr textUnder
  cases options.get? key with
  | none => rfl
  | some value => cases value <;> rfl

/- Reading a section finds the options inside. -/
theorem outcome_sectionAt
    (key : String)
    (options : Options) :
    (options.sectionAt key : Traced Event ε Options).outcome =
      .ok (options.optionsUnder key) := by
  unfold sectionAt getOr optionsUnder
  cases options.get? key with
  | none => rfl
  | some value => cases value <;> rfl

end Options

namespace Training

/- The model that is asked for, in small letters. -/
def modelName (options : Options) : String :=
  Text.lowerCase (options.textUnder "modelType" "resnet50")

/- The optimizer that is asked for, in small letters. -/
def optimizerName (options : Options) : String :=
  Text.lowerCase
    ((options.optionsUnder "optimizerConfig").textUnder "type"
      "adam")

/-
  The name that a script cannot build, under its key. The
  model is looked at first.
-/
def fault? (options : Options) : Option (String × String) :=
  if modelName options ∉ models then
    some ("modelType", modelName options)
  else if optimizerName options ∉ optimizers.map Prod.fst then
    some ("optimizerConfig.type", optimizerName options)
  else
    none

/- The choices of a training ask for these names. -/
theorem names_of_choose
    {options : Options}
    {choices : Choices}
    (hChoose : (choose options).outcome = .ok choices) :
    Text.lowerCase choices.model = modelName options ∧
      choices.optimizer = optimizerName options := by
  simp only [choose, Traced.outcome_bind_eq_ok,
    Options.outcome_textOr, Options.outcome_sectionAt,
    Traced.outcome_pure, Except.ok.injEq] at hChoose
  rcases hChoose with
    ⟨_, rfl, _, -, _, -, _, rfl, _, rfl, _, -, _, -, _, -, rfl⟩
  exact ⟨rfl, rfl⟩

/- A training without a fault can be built. -/
theorem fault?_eq_none_iff
    {options : Options}
    {choices : Choices}
    (hChoose : (choose options).outcome = .ok choices) :
    fault? options = none ↔ IsSupported choices := by
  rcases names_of_choose hChoose with ⟨hModel, hOptimizer⟩
  rw [IsSupported, hModel, hOptimizer, fault?]
  by_cases hKnown : modelName options ∈ models
  · by_cases hOther :
        optimizerName options ∈ optimizers.map Prod.fst
    · simp [hKnown, hOther]
    · simp [hKnown, hOther]
  · simp [hKnown]

end Training

------------------------------------------------------------
-- Faults of Nodes
------------------------------------------------------------

/- What a strict check finds wrong with a node under a key. -/
def NodeRecord.fault?
    (id : NodeId)
    (record : NodeRecord) : Option CompileError :=
  match record.kind with
  | .modelTraining =>
      (Training.fault? record.options).map fun (key, name) =>
        .unsupportedConfiguration id.text key name
  | _ => none

/- What a strict check finds wrong is a name that is unsupported. -/
theorem NodeRecord.exists_of_fault?
    {id : NodeId}
    {error : CompileError}
    {record : NodeRecord}
    (hFault : record.fault? id = some error) :
    ∃ key name,
      error = .unsupportedConfiguration id.text key name := by
  unfold fault? at hFault
  split at hFault
  · rcases Option.map_eq_some_iff.mp hFault with
      ⟨⟨key, name⟩, -, rfl⟩
    exact ⟨key, name, rfl⟩
  · cases hFault

/- What a strict check finds wrong with the node for a key. -/
def Description.faultAt?
    (description : Description)
    (id : NodeId) : Option CompileError :=
  (description.nodes.get? id).bind (NodeRecord.fault? id)

namespace Request

/- What a strict check finds wrong with a request. -/
def fault? (request : Request) : Option CompileError :=
  NodeRecord.fault? request.id ⟨request.kind, request.options⟩

/- Only a training can have a fault. -/
theorem fault?_eq_none
    (request : Request)
    (hKind : request.kind ≠ .modelTraining) :
    request.fault? = none := by
  unfold fault? NodeRecord.fault?
  split
  · next hTraining => exact absurd hTraining hKind
  · rfl

/- The request, with names checked strictly or not. -/
def withStrict
    (isStrict : Bool)
    (request : Request) : Request :=
  { request with
    layout := { request.layout with isStrict := isStrict } }

/- A request that is checked as it says is as it is. -/
theorem withStrict_eq
    {request : Request}
    {isStrict : Bool}
    (hSame : request.layout.isStrict = isStrict) :
    request.withStrict isStrict = request := by
  subst hSame
  rfl

end Request

/- The settings, with names checked strictly or not. -/
def Settings.withStrict
    (isStrict : Bool)
    (settings : Settings) : Settings :=
  { settings with strictModels := isStrict }

/- Settings are refused for the same, strict or not. -/
theorem Settings.check_withStrict
    (isStrict : Bool)
    (settings : Settings) :
    (settings.withStrict isStrict).check = settings.check := by
  unfold check problem? lacksTorch withStrict
  rfl

------------------------------------------------------------
-- Blocks Made Strictly
------------------------------------------------------------

/- A strict check fails for the first name that is not known. -/
theorem Training.check_strict
    (request : Request)
    {choices : Choices}
    (hKind : request.kind = .modelTraining)
    (hChoose : (choose request.options).outcome = .ok choices) :
    check (request.withStrict true) choices =
      match request.fault? with
      | some error => .error error
      | none => .ok () := by
  rcases names_of_choose hChoose with ⟨hModel, hOptimizer⟩
  rw [Request.fault?, NodeRecord.fault?, hKind, fault?, check,
    hModel, hOptimizer]
  by_cases hKnown : modelName request.options ∈ models
  · by_cases hOther :
        optimizerName request.options ∈ optimizers.map Prod.fst
    · simp [checkName, hKnown, hOther, bind, Except.bind]
    · simp [checkName, hKnown, hOther, bind, Except.bind,
        Request.withStrict]
  · simp [checkName, hKnown, bind, Except.bind,
      Request.withStrict]

/-
  Where names are checked strictly, a node with a fault fails
  with it, and any other becomes the block that it becomes
  without the check.
-/
theorem Registry.generate_strict (request : Request) :
    (standard.generate (request.withStrict true)).outcome =
      match request.fault? with
      | some error => .error error
      | none =>
          (standard.generate
            (request.withStrict false)).outcome := by
  have hGenerator (isStrict : Bool) :
      (standard.generate (request.withStrict isStrict)).outcome =
        (request.kind.generator.generate
          (request.withStrict isStrict)).outcome := by
    rw [outcome_generate, NodeKind.resolve_standard]
    rfl
  rw [hGenerator, hGenerator]
  cases hKind : request.kind with
  | dataLoader =>
      rw [request.fault?_eq_none (by simp [hKind])]
      rfl
  | imageAugmentation =>
      rw [request.fault?_eq_none (by simp [hKind])]
      rfl
  | unknown tag isNew =>
      rw [request.fault?_eq_none (by simp [hKind])]
      rfl
  | modelTraining =>
      rcases Training.exists_choose request.options with
        ⟨choices, hChoose⟩
      have hChoices (isStrict : Bool) :
          (Training.choose
              (request.withStrict isStrict).options).outcome =
            .ok choices := hChoose
      have hLoose :
          Training.check (request.withStrict false) choices =
            .ok () :=
        Training.check_eq_ok rfl choices
      simp only [NodeKind.generator, Generator.training,
        Traced.outcome_bind, Traced.outcome_ofExcept, hChoices,
        hLoose, Training.check_strict request hKind hChoose]
      cases request.fault? with
      | none => rfl
      | some error => rfl

/- A block is made strictly if it is made and has no fault. -/
theorem Registry.generate_strict_eq_ok_iff
    {request : Request}
    {generated : Generated} :
    (standard.generate (request.withStrict true)).outcome =
        .ok generated ↔
      (standard.generate (request.withStrict false)).outcome =
          .ok generated ∧
        request.fault? = none := by
  rw [generate_strict]
  cases request.fault? with
  | none => simp
  | some error => simp

/- The known generators fail only where names are checked. -/
theorem Registry.fault?_of_generate_standard
    {request : Request}
    {error : CompileError}
    (hGenerate :
      (standard.generate request).outcome = .error error) :
    request.layout.isStrict = true ∧
      request.fault? = some error := by
  cases hStrict : request.layout.isStrict with
  | false =>
      rcases exists_generate_standard hStrict with
        ⟨generated, hGenerated⟩
      rw [hGenerate] at hGenerated
      cases hGenerated
  | true =>
      refine ⟨rfl, ?_⟩
      have hOwn := generate_strict request
      rw [Request.withStrict_eq hStrict, hGenerate] at hOwn
      cases hFault : request.fault? with
      | some fault =>
          rw [hFault] at hOwn
          rw [Except.error.inj hOwn]
      | none =>
          have hLoose :
              (request.withStrict false).layout.isStrict = false :=
            rfl
          rcases exists_generate_standard hLoose with
            ⟨generated, hGenerated⟩
          rw [hFault, hGenerated] at hOwn
          cases hOwn

------------------------------------------------------------
-- Blocks That Raise Errors
------------------------------------------------------------

/-
  The lines of a block lead on if a strict check finds nothing
  wrong with its node, and else they fail.
-/
theorem Request.leadsOn_or_fails
    {lower : String → String}
    (hLower : ∀ text, lower text = Text.lowerCase text)
    {request : Request}
    (hIndent : Settings.isIndent request.layout.indent)
    (hName : request.name = nodeName request.kind request.id)
    {generated : Generated}
    (hGenerate :
      (Registry.standard.generate
        (request.withStrict false)).outcome = .ok generated) :
    (request.fault? = none →
        Course.LeadsOn lower generated.lines) ∧
      (request.fault? ≠ none →
        Course.Fails lower generated.lines) := by
  have hShape : Text.isName (request.withStrict false).name := by
    rw [withStrict, hName]
    exact isName_nodeName request.kind request.id
  have hMark : '_' ∈ (request.withStrict false).name.toList := by
    rw [withStrict, hName]
    exact underscore_mem_nodeName request.kind request.id
  by_cases hKind : request.kind = .modelTraining
  · rw [Registry.generate_standard_eq_ok_iff] at hGenerate
    change (request.kind.generator.generate _).outcome = _
      at hGenerate
    simp only [hKind, NodeKind.generator, Generator.training,
      Traced.outcome_bind_eq_ok, Traced.outcome_pure,
      Except.ok.injEq] at hGenerate
    rcases hGenerate with ⟨choices, hChoose, _, -, rfl⟩
    have hFault :
        request.fault? = none ↔
          Training.IsSupported choices := by
      rw [← Training.fault?_eq_none_iff hChoose, fault?,
        NodeRecord.fault?, hKind]
      exact Option.map_eq_none_iff
    rw [Ne, hFault]
    exact Training.leadsOn_or_fails hLower hIndent hShape hMark
      choices
  · rcases (Registry.becomes_of_generate hGenerate).1 with
      ⟨items, hBecomes, hLines⟩
    rw [hLines]
    exact ⟨fun _ =>
        hBecomes.leadsOn hKind hIndent hShape hMark lower,
      fun hFault => absurd (request.fault?_eq_none hKind) hFault⟩

/-
  Every node becomes a block without the strict check, and the
  check fails exactly if the lines of the block raise an error.
-/
theorem Request.fails_strictly_iff_raises
    {lower : String → String}
    (hLower : ∀ text, lower text = Text.lowerCase text)
    (request : Request)
    (hIndent : Settings.isIndent request.layout.indent)
    (hName : request.name = nodeName request.kind request.id) :
    ∃ generated,
      (Registry.standard.generate
          (request.withStrict false)).outcome =
        .ok generated ∧
        ((∃ error,
            (Registry.standard.generate
                (request.withStrict true)).outcome =
              .error error) ↔
          Course.raises lower generated.lines) := by
  have hLoose :
      (request.withStrict false).layout.isStrict = false := rfl
  rcases Registry.exists_generate_standard hLoose with
    ⟨generated, hGenerated⟩
  have hLines :=
    leadsOn_or_fails hLower hIndent hName hGenerated
  refine ⟨generated, hGenerated, ?_⟩
  rw [Registry.generate_strict]
  cases hFault : request.fault? with
  | none =>
      have hOn := hLines.1 hFault
      rw [Course.raises_iff_fails (Or.inl hOn), hGenerated]
      refine iff_of_false (by simp) fun hFails => ?_
      exact hFails.not_leadsOn hOn
  | some error =>
      have hFails : Course.Fails lower generated.lines :=
        hLines.2 (by simp [hFault])
      rw [Course.raises_iff_fails (Or.inr hFails)]
      exact iff_of_true ⟨error, rfl⟩ hFails

------------------------------------------------------------
-- Whole Runs
------------------------------------------------------------

/- What a strict check finds wrong with the node in a place. -/
def Graph.faultAt?
    (graph : Graph)
    (place : Nat) : Option CompileError :=
  graph.nodes[place]?.bind fun node =>
    NodeRecord.fault? node.id ⟨node.kind, node.options⟩

/- Faults are found by place where they are found by key. -/
theorem Graph.findSome?_faultAt?
    {description : Description}
    {graph : Graph}
    (hGraph : ofDescription description = .ok graph)
    (places : List Nat) :
    (graph.idsAt places).findSome? description.faultAt? =
      places.findSome? graph.faultAt? := by
  rw [idsAt, ← List.head?_filterMap, List.filterMap_filterMap,
    ← List.head?_filterMap]
  congr 1
  apply List.filterMap_congr
  intro place _
  cases hNode : graph.nodes[place]? with
  | none => simp [faultAt?, hNode]
  | some node =>
      have hRecord :=
        (getElem?_nodes_of_ofDescription hGraph hNode).2
      simp [faultAt?, Description.faultAt?, hNode, hRecord]

namespace Assembly

variable {settings : Settings} {description : Description}
variable {graph : Graph} {progress next after : Progress}
variable {place : Nat} {node : Node} {places : List Nat}
variable {script : Script} {error : CompileError}

/- A block is made of the same request, strictly or not. -/
theorem request_withStrict
    (isStrict : Bool)
    (block : Block) :
    block.request (settings.withStrict isStrict) =
      (block.request settings).withStrict isStrict :=
  rfl

/- A strict visit is one that is made without a fault. -/
theorem visit_strict_eq_ok_iff
    (hNode : graph.nodes[place]? = some node) :
    (visit (settings.withStrict true) .standard graph progress
        place node).outcome = .ok next ↔
      (visit (settings.withStrict false) .standard graph
          progress place node).outcome = .ok next ∧
        graph.faultAt? place = none := by
  have hFault (block : Block) (hSame : block.node = node) :
      graph.faultAt? place =
        (block.request settings).fault? := by
    rw [Graph.faultAt?, hNode, ← hSame]
    rfl
  simp only [visit_eq_ok_iff, request_withStrict,
    Registry.generate_strict_eq_ok_iff]
  constructor
  · rintro ⟨names, block, imports, hPlace, hSame, hNames,
      hInputs, ⟨hGenerate, hNone⟩, hRest⟩
    refine ⟨⟨names, block, imports, hPlace, hSame, hNames,
      hInputs, hGenerate, hRest⟩, ?_⟩
    rw [hFault block hSame]
    exact hNone
  · rintro ⟨⟨names, block, imports, hPlace, hSame, hNames,
      hInputs, hGenerate, hRest⟩, hNone⟩
    rw [hFault block hSame] at hNone
    exact ⟨names, block, imports, hPlace, hSame, hNames,
      hInputs, ⟨hGenerate, hNone⟩, hRest⟩

/- A strict visit to a node with a fault fails with it. -/
theorem visit_strict_of_fault
    (hNode : graph.nodes[place]? = some node)
    (hLoose :
      (visit (settings.withStrict false) .standard graph progress
        place node).outcome = .ok next)
    (hFault : graph.faultAt? place = some error) :
    (visit (settings.withStrict true) .standard graph progress
        place node).outcome = .error error := by
  rcases visit_eq_ok_iff.mp hLoose with
    ⟨names, block, imports, rfl, rfl, hNames, hInputs, -, -, -⟩
  have hRequest :
      (block.request settings).fault? = some error := by
    rw [Graph.faultAt?, hNode] at hFault
    exact hFault
  have hGenerate :
      (Registry.standard.generate
        ((block.request settings).withStrict true)).outcome =
          .error error := by
    rw [Registry.generate_strict, hRequest]
  unfold visit
  simp only [Traced.outcome_bind_eq_error,
    Traced.outcome_ofExcept]
  exact Or.inr ⟨names, hNames, Or.inr ⟨block.inputs,
    inputNames_eq_ok_iff.mpr hInputs, Or.inl hGenerate⟩⟩

/- A strict run is one that is made without any fault. -/
theorem visitAll_strict_eq_ok_iff :
    (visitAll (settings.withStrict true) .standard graph
        progress places).outcome = .ok after ↔
      (visitAll (settings.withStrict false) .standard graph
          progress places).outcome = .ok after ∧
        places.findSome? graph.faultAt? = none := by
  induction places generalizing progress with
  | nil => simp [visitAll]
  | cons place places ih =>
      cases hNode : graph.nodes[place]? with
      | none =>
          have hNone : graph.faultAt? place = none := by
            rw [Graph.faultAt?, hNode]
            rfl
          simp only [visitAll, hNode, List.findSome?_cons, hNone]
          exact ih
      | some node =>
          simp only [visitAll, hNode, Traced.outcome_bind_eq_ok,
            visit_strict_eq_ok_iff hNode, ih,
            List.findSome?_cons]
          constructor
          · rintro ⟨next, ⟨hVisit, hNone⟩, hRest, hAll⟩
            rw [hNone]
            exact ⟨⟨next, hVisit, hRest⟩, hAll⟩
          · rintro ⟨⟨next, hVisit, hRest⟩, hAll⟩
            cases hFault : graph.faultAt? place with
            | none =>
                rw [hFault] at hAll
                exact ⟨next, ⟨hVisit, rfl⟩, hRest, hAll⟩
            | some error =>
                rw [hFault] at hAll
                cases hAll

/- A strict run fails with the first fault on its way. -/
theorem visitAll_strict_of_fault
    (hLoose :
      (visitAll (settings.withStrict false) .standard graph
        progress places).outcome = .ok after)
    (hFault : places.findSome? graph.faultAt? = some error) :
    (visitAll (settings.withStrict true) .standard graph
      progress places).outcome = .error error := by
  induction places generalizing progress with
  | nil => cases hFault
  | cons place places ih =>
      cases hNode : graph.nodes[place]? with
      | none =>
          have hNone : graph.faultAt? place = none := by
            rw [Graph.faultAt?, hNode]
            rfl
          rw [List.findSome?_cons, hNone] at hFault
          simp only [visitAll, hNode] at hLoose ⊢
          exact ih hLoose hFault
      | some node =>
          simp only [visitAll, hNode,
            Traced.outcome_bind_eq_ok] at hLoose
          rcases hLoose with ⟨next, hVisit, hRest⟩
          simp only [visitAll, hNode,
            Traced.outcome_bind_eq_error]
          cases hFirst : graph.faultAt? place with
          | some first =>
              rw [List.findSome?_cons, hFirst,
                Option.some.injEq] at hFault
              subst hFault
              exact Or.inl
                (visit_strict_of_fault hNode hVisit hFirst)
          | none =>
              rw [List.findSome?_cons, hFirst] at hFault
              exact Or.inr ⟨next,
                (visit_strict_eq_ok_iff hNode).mpr
                  ⟨hVisit, hFirst⟩,
                ih hRest hFault⟩

/- All blocks are made strictly if none of them has a fault. -/
theorem generate_strict_eq_ok_iff :
    (generate (settings.withStrict true) .standard graph
        places).outcome = .ok after ↔
      (generate (settings.withStrict false) .standard graph
          places).outcome = .ok after ∧
        places.findSome? graph.faultAt? = none := by
  simp only [generate, Traced.outcome_bind_eq_ok,
    visitAll_strict_eq_ok_iff]
  constructor
  · rintro ⟨defaults, hDefaults, hRun, hNone⟩
    exact ⟨⟨defaults, hDefaults, hRun⟩, hNone⟩
  · rintro ⟨⟨defaults, hDefaults, hRun⟩, hNone⟩
    exact ⟨defaults, hDefaults, hRun, hNone⟩

/- Making blocks strictly fails with the first fault. -/
theorem generate_strict_of_fault
    (hLoose :
      (generate (settings.withStrict false) .standard graph
        places).outcome = .ok after)
    (hFault : places.findSome? graph.faultAt? = some error) :
    (generate (settings.withStrict true) .standard graph
      places).outcome = .error error := by
  rw [generate, Traced.outcome_bind_eq_ok] at hLoose
  rcases hLoose with ⟨defaults, hDefaults, hRun⟩
  rw [generate, Traced.outcome_bind_eq_error]
  exact Or.inr ⟨defaults, hDefaults,
    visitAll_strict_of_fault hRun hFault⟩

/- A strict script is one that is made without any fault. -/
theorem assemble_strict_eq_ok_iff :
    (assemble (settings.withStrict true) .standard
        description).outcome = .ok script ↔
      (assemble (settings.withStrict false) .standard
          description).outcome = .ok script ∧
        script.order.findSome? description.faultAt? = none := by
  simp only [assemble_eq_ok_iff, generate_strict_eq_ok_iff]
  constructor
  · rintro ⟨hCheck, graph, places, progress, hGraph, hOrder,
      ⟨hGenerate, hNone⟩, rfl⟩
    refine ⟨⟨hCheck, graph, places, progress, hGraph, hOrder,
      hGenerate, rfl⟩, ?_⟩
    rw [← Graph.findSome?_faultAt? hGraph] at hNone
    exact hNone
  · rintro ⟨⟨hCheck, graph, places, progress, hGraph, hOrder,
      hGenerate, rfl⟩, hNone⟩
    refine ⟨hCheck, graph, places, progress, hGraph, hOrder,
      ⟨hGenerate, ?_⟩, rfl⟩
    rw [← Graph.findSome?_faultAt? hGraph]
    exact hNone

/- A script with a fault is not made strictly. -/
theorem assemble_strict_of_fault
    (hLoose :
      (assemble (settings.withStrict false) .standard
        description).outcome = .ok script)
    (hFault :
      script.order.findSome? description.faultAt? =
        some error) :
    (assemble (settings.withStrict true) .standard
      description).outcome = .error error := by
  rcases assemble_eq_ok_iff.mp hLoose with
    ⟨hCheck, graph, places, progress, hGraph, hOrder, hGenerate,
      rfl⟩
  have hFirst : places.findSome? graph.faultAt? = some error := by
    rw [← Graph.findSome?_faultAt? hGraph]
    exact hFault
  rw [assemble_eq_error_iff]
  exact Or.inr ⟨hCheck, Or.inr ⟨graph, hGraph, Or.inr ⟨places,
    hOrder, generate_strict_of_fault hGenerate hFirst⟩⟩⟩

end Assembly

------------------------------------------------------------
-- Scripts That Raise Errors
------------------------------------------------------------

variable {settings : Settings} {description : Description}
variable {script : Script}

/- The fault of a node is that of what its generator is told. -/
theorem Request.IsFor.faultAt?_eq
    {request : Request}
    (hFor : request.IsFor settings description) :
    description.faultAt? request.id = request.fault? := by
  rw [Description.faultAt?, hFor.node_eq]
  rfl

/- What a generator is told is laid out as the settings say. -/
theorem Request.IsFor.isIndent
    {request : Request}
    (hFor : request.IsFor settings description)
    (hCheck : settings.check.outcome = .ok ()) :
    Settings.isIndent request.layout.indent := by
  rw [hFor.layout_eq]
  exact (Settings.check_eq_ok_iff.mp hCheck).1

/- A script raises an error if one of its nodes has a fault. -/
theorem Script.IsThreaded.raises_iff
    {lower : String → String}
    (hLower : ∀ text, lower text = Text.lowerCase text)
    (hCheck : settings.check.outcome = .ok ())
    (hLoose : settings.strictModels = false)
    {calls : List Call}
    {events : List Event}
    (hThreaded :
      script.IsThreaded settings .standard description calls
        events) :
    Course.raises lower
        (calls.flatMap fun call => call.generated.lines) ↔
      script.order.findSome? description.faultAt? ≠ none := by
  have hCalls (call : Call) (hCall : call ∈ calls) :
      (call.request.fault? = none →
          Course.LeadsOn lower call.generated.lines) ∧
        (call.request.fault? ≠ none →
          Course.Fails lower call.generated.lines) := by
    have hDue := hThreaded.isDue call hCall
    have hFor := hDue.isFor
    apply Request.leadsOn_or_fails hLower (hFor.isIndent hCheck)
      hFor.name_eq
    rw [Request.withStrict_eq, Registry.outcome_generate]
    · exact hDue.generated_eq
    · rw [hFor.layout_eq]
      exact hLoose
  have hFaults :
      script.order.findSome? description.faultAt? = none ↔
        ∀ call ∈ calls, call.request.fault? = none := by
    rw [hThreaded.order_eq, List.findSome?_eq_none_iff,
      List.forall_mem_map]
    refine forall₂_congr fun call hCall => ?_
    rw [(hThreaded.isDue call hCall).isFor.faultAt?_eq]
  have hBlocks (call : Call) (hCall : call ∈ calls) :
      Course.LeadsOn lower call.generated.lines ∨
        Course.Fails lower call.generated.lines := by
    by_cases hFault : call.request.fault? = none
    · exact Or.inl ((hCalls call hCall).1 hFault)
    · exact Or.inr ((hCalls call hCall).2 hFault)
  rw [Ne, hFaults]
  rcases Course.leadsOn_or_fails_flatMap hBlocks with
    ⟨hOn, hNone⟩ | ⟨hFails, call, hCall, hFailing⟩
  · rw [Course.raises_iff_fails (Or.inl hOn)]
    refine iff_of_false (fun hFails => hFails.not_leadsOn hOn)
      (not_not_intro fun call hCall => ?_)
    by_contra hFault
    exact hNone call hCall ((hCalls call hCall).2 hFault)
  · rw [Course.raises_iff_fails (Or.inr hFails)]
    refine iff_of_true hFails fun hAll => ?_
    exact hFailing.not_leadsOn
      ((hCalls call hCall).1 (hAll call hCall))

namespace Assembly

/- Without the strict check, no name is unsupported. -/
theorem assemble_ne_unsupported
    (hLoose : settings.strictModels = false)
    (id key name : String) :
    (assemble settings .standard description).outcome ≠
      .error (.unsupportedConfiguration id key name) := by
  intro hAssemble
  rcases exists_request_of_assemble hAssemble rfl with
    ⟨request, hFor, hGenerate⟩
  have hLayout : request.layout.isStrict = false := by
    rw [hFor.layout_eq]
    exact hLoose
  rcases Registry.exists_generate_standard hLayout with
    ⟨generated, hGenerated⟩
  rw [hGenerate] at hGenerated
  cases hGenerated

end Assembly

namespace Compiler

/- A strict script is one that is made without any fault. -/
theorem compile_strict_eq_ok_iff :
    ((ofSettings (settings.withStrict true)).compile
        description).outcome = .ok script ↔
      ((ofSettings (settings.withStrict false)).compile
          description).outcome = .ok script ∧
        script.order.findSome? description.faultAt? = none := by
  rw [compile_eq_ok_iff, compile_eq_ok_iff]
  exact Assembly.assemble_strict_eq_ok_iff

/-
  A script that is made without the strict check is refused by
  it for the first fault of a node, and it is refused exactly
  if following its lines raises an error.
-/
theorem compile_strict_of_loose
    {lower : String → String}
    (hLower : ∀ text, lower text = Text.lowerCase text)
    (hCheck : settings.check.outcome = .ok ())
    (hLoose :
      ((ofSettings (settings.withStrict false)).compile
        description).outcome = .ok script) :
    (((ofSettings (settings.withStrict true)).compile
          description).outcome =
        match script.order.findSome? description.faultAt? with
        | some error => .error error
        | none => .ok script) ∧
      ∃ calls,
        script.IsThreaded (settings.withStrict false) .standard
            description calls
            (Assembly.assemble (settings.withStrict false)
              .standard description).events ∧
          ((∃ error,
              ((ofSettings (settings.withStrict true)).compile
                description).outcome = .error error) ↔
            Course.raises lower
              (calls.flatMap fun call =>
                call.generated.lines)) := by
  have hAssemble := compile_eq_ok_iff.mp hLoose
  simp only [ofSettings] at hAssemble
  have hStrict :
      ((ofSettings (settings.withStrict true)).compile
          description).outcome =
        match script.order.findSome? description.faultAt? with
        | some error => .error error
        | none => .ok script := by
    split
    · next error hFault =>
        rw [compile_eq_error_iff]
        exact Assembly.assemble_strict_of_fault hAssemble hFault
    · next hNone =>
        exact compile_strict_eq_ok_iff.mpr ⟨hLoose, hNone⟩
  rcases Assembly.exists_isMadeOf hAssemble with
    ⟨graph, blocks, hMade⟩
  have hThreaded :=
    hMade.isThreaded (Assembly.events_assemble hAssemble hMade)
  have hLooseCheck :
      (settings.withStrict false).check.outcome = .ok () := by
    rw [Settings.check_withStrict, hCheck]
  refine ⟨hStrict, _, hThreaded, ?_⟩
  rw [hThreaded.raises_iff hLower hLooseCheck rfl, hStrict]
  cases script.order.findSome? description.faultAt? with
  | none => simp
  | some error => simp

/- Without the strict check, no name is unsupported. -/
theorem compile_ne_unsupported
    (hLoose : settings.strictModels = false)
    (id key name : String) :
    ((ofSettings settings).compile description).outcome ≠
      .error (.unsupportedConfiguration id key name) := by
  rw [Ne, compile_eq_error_iff]
  exact Assembly.assemble_ne_unsupported hLoose id key name

/-
  Checking names strictly changes no script, and removes those
  that would raise an error.

  What is made strictly is made without the check as well, and
  is the same. Without the check, no name is unsupported. Where
  a script is made without it, the strict check fails for the
  first node with a fault, if there is one, and this is so
  exactly if following the lines of the script raises an error.
  For a node alone, the strict check fails exactly if following
  the lines of its block raises one.
-/
theorem strict_removes_raising_scripts
    (settings : Settings)
    (description : Description)
    (lower : String → String)
    (hCheck : settings.check.outcome = .ok ())
    (hLower : ∀ text, lower text = Text.lowerCase text) :
    let loose :=
      ((ofSettings (settings.withStrict false)).compile
        description).outcome
    let strict :=
      ((ofSettings (settings.withStrict true)).compile
        description).outcome
    (∀ script, strict = .ok script → loose = .ok script) ∧
      (∀ id key name,
        loose ≠
          .error (.unsupportedConfiguration id key name)) ∧
      (∀ script, loose = .ok script →
        (strict =
          match script.order.findSome? description.faultAt? with
          | some error => .error error
          | none => .ok script) ∧
        ∃ calls,
          script.IsThreaded (settings.withStrict false) .standard
              description calls
              (Assembly.assemble (settings.withStrict false)
                .standard description).events ∧
            ((∃ error, strict = .error error) ↔
              Course.raises lower
                (calls.flatMap fun call =>
                  call.generated.lines))) ∧
      ∀ request : Request,
        request.name = nodeName request.kind request.id →
        request.layout = settings.layout →
        ∃ generated,
          (Registry.standard.generate
              (request.withStrict false)).outcome =
            .ok generated ∧
            ((∃ error,
                (Registry.standard.generate
                    (request.withStrict true)).outcome =
                  .error error) ↔
              Course.raises lower generated.lines) := by
  intro loose strict
  refine ⟨?_, ?_, ?_, ?_⟩
  · intro script hStrict
    exact (compile_strict_eq_ok_iff.mp hStrict).1
  · intro id key name
    exact compile_ne_unsupported rfl id key name
  · intro script hLoose
    exact compile_strict_of_loose hLower hCheck hLoose
  · intro request hName hLayout
    have hIndent : Settings.isIndent request.layout.indent := by
      rw [hLayout]
      exact (Settings.check_eq_ok_iff.mp hCheck).1
    exact request.fails_strictly_iff_raises hLower hIndent hName

/-
  Two trainings, the first of which asks for names in capital
  letters, and the second for an optimizer that is not known.
-/
theorem strict_compile_of_unknown_optimizer :
    let options (model optimizer : String) : Options :=
      ⟨[("modelType", .text model),
        ("optimizerConfig",
          .object [("type", .text optimizer)])]⟩
    let description : Description :=
      { pipelineId := none
        nodes :=
          ⟨[(⟨"a"⟩, ⟨.modelTraining, options "VGG16" "SGD"⟩),
            (⟨"b"⟩,
              ⟨.modelTraining,
                options "resnet18" "RMSProp"⟩)], by decide⟩
        connections := .empty
        remarks := [] }
    let loosely := Settings.standard.withStrict false
    let strictly := Settings.standard.withStrict true
    Settings.standard.check.outcome = .ok () ∧
      ∃ script calls,
        ((ofSettings loosely).compile description).outcome =
            .ok script ∧
          ((ofSettings strictly).compile description).outcome =
            .error
              (.unsupportedConfiguration "b"
                "optimizerConfig.type" "rmsprop") ∧
          script.IsThreaded loosely .standard description calls
            (Assembly.assemble loosely .standard
              description).events ∧
          Course.raises Text.lowerCase
            (calls.flatMap fun call => call.generated.lines) := by
  intro options description loosely strictly
  have hCheck : Settings.standard.check.outcome = .ok () := rfl
  have hLooseCheck : loosely.check.outcome = .ok () := by
    simp only [loosely, Settings.check_withStrict, hCheck]
  have hNone : description.connections.values = [] := rfl
  have hLoose :
      ∃ script,
        ((ofSettings loosely).compile description).outcome =
          .ok script := by
    refine exists_compile hLooseCheck rfl ?_ ?_ ?_ ?_ ⟨?_, ?_⟩
    · simp [Description.IsLinked, hNone]
    · intro id hCycle
      rcases Relation.TransGen.head'_iff.mp hCycle with
        ⟨next, ⟨connection, hConnection, -⟩, -⟩
      rw [hNone] at hConnection
      cases hConnection
    · decide
    · decide
    · decide
    · decide
  rcases hLoose with ⟨script, hScript⟩
  rcases (strict_removes_raising_scripts .standard description
      Text.lowerCase hCheck (fun _ => rfl)).2.2.1 script
      hScript with
    ⟨hStrict, calls, hThreaded, hRaises⟩
  have hSorted :
      validate ⟨loosely, .standard⟩ description =
        .ok [⟨"a"⟩, ⟨"b"⟩] := by
    decide +kernel
  have hOrder : script.order = [⟨"a"⟩, ⟨"b"⟩] := by
    rw [hThreaded.isSorted, Except.ok.injEq] at hSorted
    rw [hThreaded.order_eq, hSorted]
  have hFault :
      script.order.findSome? description.faultAt? =
        some
          (.unsupportedConfiguration "b" "optimizerConfig.type"
            "rmsprop") := by
    rw [hOrder]
    decide +kernel
  rw [hFault] at hStrict
  exact ⟨hCheck, script, calls, hScript, hStrict, hThreaded,
    hRaises.mp ⟨_, hStrict⟩⟩

end Compiler

end PipelineScript
