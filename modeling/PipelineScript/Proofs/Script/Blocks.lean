import PipelineScript.Proofs.Graph.Order
import PipelineScript.Proofs.Import.ImportBlock
import PipelineScript.Proofs.Script.NameTable
import PipelineScript.Script.Assembly

/-
  The blocks that nodes become, one after the other.

  Key definitions include:
    * `Graph.nameAt?`
    * `Block`
    * `Block.IsMade`
    * `Assembly.Visited`

  Key theorems include:
    * `Assembly.visit_eq_ok_iff`
    * `Assembly.exists_visited`
    * `Assembly.exists_visitAll`
-/

namespace PipelineScript

------------------------------------------------------------
-- Names by Place
------------------------------------------------------------

/- The name of the node in a place. -/
def Graph.nameAt?
    (graph : Graph)
    (place : Nat) : Option String :=
  graph.nodes[place]?.map fun node => nodeName node.kind node.id

/- Names were given to the nodes of a graph, and no others. -/
def NameTable.IsOf
    (graph : Graph)
    (table : NameTable) : Prop :=
  ∀ place name,
    table.get? place = some name →
      graph.nameAt? place = some name

/- The table without names has no wrong one. -/
theorem NameTable.isOf_empty (graph : Graph) :
    NameTable.empty.IsOf graph := by
  intro place name hName
  cases hName

------------------------------------------------------------
-- Blocks
------------------------------------------------------------

/- A node with its place, its inputs and what it became. -/
structure Block where
  place : Nat
  node : Node
  inputs : List String
  generated : Generated

namespace Block

/- The name that the block binds. -/
def name (block : Block) : String :=
  nodeName block.node.kind block.node.id

/- The name as it stands in a table. -/
def entry (block : Block) : NameEntry where
  place := block.place
  node := block.node.id
  name := block.name

/- What the generator of the block was told. -/
def request
    (settings : Settings)
    (block : Block) : Request where
  id := block.node.id
  kind := block.node.kind
  name := block.name
  options := block.node.options
  inputs := block.inputs
  layout := settings.layout

/- The imports of the block and those that its tag requires. -/
def requests
    (settings : Settings)
    (block : Block) : List Directive :=
  block.generated.imports
    ++ settings.imports.forTag block.node.kind.tag

/-
  The block is made of the node in its place and of the names
  of its inputs, edge by edge.
-/
structure IsMade
    (settings : Settings)
    (registry : Registry)
    (graph : Graph)
    (block : Block) : Prop where
  node_eq : graph.nodes[block.place]? = some block.node
  inputs_eq :
    (graph.inputsOf block.place).map graph.nameAt? =
      block.inputs.map some
  generated_eq :
    (registry.generate (block.request settings)).outcome =
      .ok block.generated

end Block

/- The name of a block is the name of the node in its place. -/
theorem NameTable.IsOf.assign
    {graph : Graph}
    {table next : NameTable}
    (hOf : table.IsOf graph)
    {block : Block}
    (hNode : graph.nodes[block.place]? = some block.node)
    (hAssign :
      table.assign block.place block.node.id block.name =
        .ok next) :
    next.IsOf graph := by
  intro place name hName
  rw [NameTable.get?_of_assign hAssign] at hName
  by_cases hPlace : place = block.place
  · rw [if_pos hPlace] at hName
    rw [hPlace, Graph.nameAt?, hNode, ← hName]
    rfl
  · rw [if_neg hPlace] at hName
    exact hOf place name hName

namespace Assembly

variable {settings : Settings} {registry : Registry}
variable {graph : Graph} {progress next : Progress}
variable {place : Nat} {node : Node}

------------------------------------------------------------
-- Visiting One Node
------------------------------------------------------------

/- The names of inputs are those that were given to them. -/
theorem inputNames_eq_ok_iff
    {names : NameTable}
    {places : List Nat}
    {inputs : List String} :
    inputNames graph names node places = .ok inputs ↔
      places.map names.get? = inputs.map some := by
  induction places generalizing inputs with
  | nil => cases inputs <;> simp [inputNames]
  | cons place places ih =>
      simp only [inputNames, bind_eq_ok, inputName,
        Except.ok.injEq, ih]
      cases hName : names.get? place with
      | none => cases inputs <;> simp [hName]
      | some name =>
          cases inputs with
          | nil => simp
          | cons input inputs => simp [hName, and_comm]

/- The imports of a block, requested at once. -/
theorem blockImports_eq
    (tag : String)
    (generated : Generated) :
    blockImports settings tag generated =
      ImportBlock.ofDirectives
        (generated.imports ++ settings.imports.forTag tag) := by
  rw [blockImports, ImportBlock.ofDirectives,
    ImportBlock.ofDirectives, ImportBlock.addAll_append]

/- Everything that visiting a node does. -/
theorem visit_eq_ok_iff :
    (visit settings registry graph progress place
        node).outcome = .ok next ↔
      ∃ (names : NameTable) (block : Block)
          (imports : ImportBlock),
        block.place = place ∧ block.node = node ∧
          progress.names.assign place node.id block.name =
            .ok names ∧
          (graph.inputsOf place).map names.get? =
            block.inputs.map some ∧
          (registry.generate (block.request settings)).outcome =
            .ok block.generated ∧
          (∃ own,
            ImportBlock.ofDirectives (block.requests settings) =
                .ok own ∧
              progress.imports.merge own = .ok imports) ∧
          next =
            { body := progress.body ++ block.generated.lines
              imports := imports
              names := names
              unhandled :=
                progress.unhandled
                  + (if registry.isRegistered node.kind.tag then
                      0
                    else
                      1) } := by
  unfold visit
  simp only [Traced.outcome_bind_eq_ok,
    Traced.outcome_ofExcept, Traced.outcome_pure,
    inputNames_eq_ok_iff, bind_eq_ok, blockImports_eq,
    Except.ok.injEq]
  constructor
  · rintro ⟨names, hNames, inputs, hInputs, generated,
      hGenerated, imports, ⟨own, hOwn, hMerge⟩, rfl⟩
    exact ⟨names, ⟨place, node, inputs, generated⟩, imports,
      rfl, rfl, hNames, hInputs, hGenerated,
      ⟨own, hOwn, hMerge⟩, rfl⟩
  · rintro ⟨names, block, imports, rfl, rfl, hNames, hInputs,
      hGenerated, ⟨own, hOwn, hMerge⟩, rfl⟩
    exact ⟨names, hNames, block.inputs, hInputs,
      block.generated, hGenerated, imports,
      ⟨own, hOwn, hMerge⟩, rfl⟩

------------------------------------------------------------
-- Visiting All Nodes
------------------------------------------------------------

/- What the given blocks added to an earlier state. -/
structure Visited
    (settings : Settings)
    (registry : Registry)
    (graph : Graph)
    (before : Progress)
    (blocks : List Block)
    (after : Progress) : Prop where
  made : ∀ block ∈ blocks, block.IsMade settings registry graph
  body_eq :
    after.body =
      before.body ++
        blocks.flatMap fun block => block.generated.lines
  lists :
    ∀ given,
      before.names.Lists given →
        after.names.Lists (given ++ blocks.map Block.entry)
  imports_isNormal : after.imports.IsNormal
  mem_imports :
    ∀ kept,
      kept ∈ after.imports.directives ↔
        kept ∈ before.imports.directives ∨
          kept ∈
            (blocks.flatMap (Block.requests settings)).map
              Directive.normalized

/- The names of inputs are those of the places they have. -/
theorem map_nameAt?_of_map_get?
    {names : NameTable}
    (hOf : names.IsOf graph)
    {places : List Nat}
    {inputs : List String}
    (hInputs : places.map names.get? = inputs.map some) :
    places.map graph.nameAt? = inputs.map some := by
  induction places generalizing inputs with
  | nil => simpa using hInputs
  | cons place places ih =>
      cases inputs with
      | nil => simp at hInputs
      | cons input inputs =>
          rw [List.map_cons, List.map_cons,
            List.cons.injEq] at hInputs ⊢
          exact ⟨hOf place input hInputs.1, ih hInputs.2⟩

/- One visit adds one block. -/
theorem visited_of_visit
    (hNode : graph.nodes[place]? = some node)
    (hNormal : progress.imports.IsNormal)
    (hOf : progress.names.IsOf graph)
    (hVisit :
      (visit settings registry graph progress place
        node).outcome = .ok next) :
    ∃ block, block.place = place ∧
      Visited settings registry graph progress [block] next ∧
      next.names.IsOf graph := by
  rcases visit_eq_ok_iff.mp hVisit with
    ⟨names, block, imports, rfl, rfl, hNames, hInputs,
      hGenerated, ⟨own, hOwn, hMerge⟩, rfl⟩
  have hNext : names.IsOf graph := hOf.assign hNode hNames
  refine ⟨block, rfl, ⟨?_, ?_, ?_, ?_, ?_⟩, hNext⟩
  · rw [List.forall_mem_singleton]
    exact ⟨hNode, map_nameAt?_of_map_get? hNext hInputs,
      hGenerated⟩
  · rw [List.flatMap_singleton]
  · intro given hLists
    exact hLists.assign hNames
  · exact ImportBlock.isNormal_of_addAll hNormal hMerge
  · intro kept
    rw [List.flatMap_singleton]
    exact ImportBlock.mem_of_merge hOwn hMerge kept

/- Blocks are added one list after the other. -/
theorem Visited.trans
    {before between after : Progress}
    {first second : List Block}
    (hFirst :
      Visited settings registry graph before first between)
    (hSecond :
      Visited settings registry graph between second after) :
    Visited settings registry graph before (first ++ second)
      after where
  made := by
    rw [List.forall_mem_append]
    exact ⟨hFirst.made, hSecond.made⟩
  body_eq := by
    rw [hSecond.body_eq, hFirst.body_eq, List.flatMap_append,
      List.append_assoc]
  lists := by
    intro given hLists
    rw [List.map_append, ← List.append_assoc]
    exact hSecond.lists _ (hFirst.lists given hLists)
  imports_isNormal := hSecond.imports_isNormal
  mem_imports := by
    intro kept
    rw [hSecond.mem_imports, hFirst.mem_imports,
      List.flatMap_append, List.map_append, List.mem_append,
      or_assoc]

/- What was visited has the names of its places. -/
theorem Visited.isOf
    {before after : Progress}
    {blocks : List Block}
    (hVisited :
      Visited settings registry graph before blocks after)
    (hNames : before.names = .empty) :
    after.names.IsOf graph := by
  have hLists :=
    hVisited.lists [] (hNames ▸ NameTable.lists_empty)
  intro place name hName
  rcases hLists.get?_eq_some_iff.mp hName with
    ⟨entry, hEntry, rfl, rfl⟩
  rcases List.mem_map.mp hEntry with ⟨block, hBlock, rfl⟩
  simp [Graph.nameAt?, Block.entry, Block.name,
    (hVisited.made block hBlock).node_eq]

/- Every visit that goes through is seen in its block. -/
theorem exists_visited
    {after : Progress}
    {places : List Nat}
    (hPlaces : ∀ place ∈ places, place < graph.size)
    (hNormal : progress.imports.IsNormal)
    (hOf : progress.names.IsOf graph)
    (hVisit :
      (visitAll settings registry graph progress
        places).outcome = .ok after) :
    ∃ blocks, blocks.map Block.place = places ∧
      Visited settings registry graph progress blocks after := by
  induction places generalizing progress with
  | nil =>
      have hEq : progress = after := by
        simpa [visitAll] using hVisit
      subst hEq
      exact ⟨[], rfl, by simp, by simp, by simp, hNormal,
        by simp⟩
  | cons place places ih =>
      rw [List.forall_mem_cons] at hPlaces
      have hPlace : place < graph.nodes.length := hPlaces.1
      have hNode :
          graph.nodes[place]? = some graph.nodes[place] :=
        List.getElem?_eq_getElem hPlace
      simp only [visitAll, hNode, Traced.outcome_bind_eq_ok]
        at hVisit
      rcases hVisit with ⟨next, hFirst, hRest⟩
      rcases visited_of_visit hNode hNormal hOf hFirst with
        ⟨block, hBlock, hVisited, hNext⟩
      rcases ih hPlaces.2 hVisited.imports_isNormal hNext
          hRest with
        ⟨blocks, hBlocks, hAll⟩
      refine ⟨block :: blocks, ?_, hVisited.trans hAll⟩
      rw [List.map_cons, hBlock, hBlocks]

------------------------------------------------------------
-- Visits That Go Through
------------------------------------------------------------

/- Inputs that were taken have the names of their places. -/
theorem map_get?_eq
    {names : NameTable}
    (hOf : names.IsOf graph)
    {places : List Nat}
    (hTaken : ∀ place ∈ places, names.get? place ≠ none) :
    places.map names.get? = places.map graph.nameAt? := by
  apply List.map_congr_left
  intro place hPlace
  cases hName : names.get? place with
  | none => exact absurd hName (hTaken place hPlace)
  | some name => exact (hOf place name hName).symm

/- A block can be visited if nothing stands against it. -/
theorem exists_visit
    {block : Block}
    {given : List NameEntry}
    (hMade : block.IsMade settings registry graph)
    (hLists : progress.names.Lists given)
    (hSound : NameEntry.AreSound (given ++ [block.entry]))
    (hOf : progress.names.IsOf graph)
    (hReady :
      ∀ input ∈ graph.inputsOf block.place,
        input ∈ given.map NameEntry.place)
    {own imports : ImportBlock}
    (hOwn :
      ImportBlock.ofDirectives (block.requests settings) =
        .ok own)
    (hMerge : progress.imports.merge own = .ok imports) :
    ∃ next,
      (visit settings registry graph progress block.place
          block.node).outcome = .ok next ∧
        next.names.Lists (given ++ [block.entry]) ∧
        next.names.IsOf graph ∧
        next.imports = imports := by
  rcases hLists.exists_assign_iff.mpr hSound with
    ⟨names, hNames⟩
  have hNext : names.Lists (given ++ [block.entry]) :=
    hLists.assign hNames
  have hNextOf : names.IsOf graph :=
    hOf.assign hMade.node_eq hNames
  have hInputs :
      (graph.inputsOf block.place).map names.get? =
        block.inputs.map some := by
    rw [← hMade.inputs_eq]
    apply map_get?_eq hNextOf
    intro input hInput hNone
    rw [hNext.get?_eq_none_iff, List.map_append] at hNone
    exact hNone (List.mem_append_left _ (hReady input hInput))
  refine ⟨_, visit_eq_ok_iff.mpr ⟨names, block, imports, rfl,
    rfl, hNames, hInputs, hMade.generated_eq,
    ⟨own, hOwn, hMerge⟩, rfl⟩, hNext, hNextOf, rfl⟩

/-
  All blocks can be visited if their inputs come first, their
  names can be given, and their imports go together.
-/
theorem exists_visitAll
    {blocks : List Block}
    {given : List NameEntry}
    (hMade :
      ∀ block ∈ blocks, block.IsMade settings registry graph)
    (hLists : progress.names.Lists given)
    (hSound :
      NameEntry.AreSound (given ++ blocks.map Block.entry))
    (hOf : progress.names.IsOf graph)
    (hReady :
      graph.Ready (given.map NameEntry.place)
        (blocks.map Block.place))
    (hNormal : progress.imports.IsNormal)
    (hAgree :
      ImportBlock.Agree
        (progress.imports.directives ++
          blocks.flatMap (Block.requests settings))) :
    ∃ after,
      (visitAll settings registry graph progress
        (blocks.map Block.place)).outcome = .ok after := by
  induction blocks generalizing progress given with
  | nil => exact ⟨progress, rfl⟩
  | cons block blocks ih =>
      rw [List.forall_mem_cons] at hMade
      rw [List.flatMap_cons, ← List.append_assoc] at hAgree
      rw [List.map_cons, List.append_cons] at hSound
      -- The imports of the first block go together with those
      -- that were there, because all of them do.
      have hFirst :
          ImportBlock.Agree
            (progress.imports.directives ++
              block.requests settings) :=
        hAgree.of_subset (by simp)
      rcases (ImportBlock.exists_merge_iff hNormal).mpr
          hFirst with
        ⟨own, hOwn, imports, hMerge⟩
      rcases exists_visit hMade.1 hLists hSound.of_append hOf
          hReady.1 hOwn hMerge with
        ⟨next, hVisit, hNextLists, hNextOf, rfl⟩
      have hNext : ∃ after,
          (visitAll settings registry graph next
            (blocks.map Block.place)).outcome = .ok after := by
        apply ih hMade.2 hNextLists hSound hNextOf
        · rw [List.map_append]
          exact hReady.2
        · exact ImportBlock.isNormal_of_addAll hNormal hMerge
        · apply hAgree.of_subset
          intro kept hKept
          rw [List.map_append, List.mem_append,
            (ImportBlock.isNormal_of_addAll hNormal
              hMerge).map_normalized,
            ImportBlock.mem_of_merge hOwn hMerge]
            at hKept
          rw [List.map_append, List.map_append,
            List.mem_append, List.mem_append,
            hNormal.map_normalized]
          exact hKept
      rcases hNext with ⟨after, hRest⟩
      refine ⟨after, ?_⟩
      simp only [List.map_cons, visitAll, hMade.1.node_eq,
        Traced.outcome_bind_eq_ok]
      exact ⟨next, hVisit, hRest⟩

end Assembly

end PipelineScript
