import PipelineScript.Proofs.Script.Compiling
import PipelineScript.Proofs.Script.NodeNames
import PipelineScript.Proofs.Script.Templates

/-
  What the blocks of a script hand on to one another.

  A block binds working names, and with its last statement the
  name of its node. Of other nodes it uses the first input
  only, which an earlier block has bound and no other block
  binds again.

  Key definitions include:
    * `Block.Reads`
    * `Block.BindsOnce`
    * `Block.TakesInput`

  Key theorems include:
    * `Block.IsMade.isClosed`
    * `Script.IsMadeOf.exists_source`
    * `Compiler.names_of_compile`
-/

namespace PipelineScript

------------------------------------------------------------
-- Statements of Blocks
------------------------------------------------------------

namespace Block

/- The lines of a block are read as these statements. -/
def Reads
    (block : Block)
    (statements : List Lexis.Statement) : Prop :=
  Lexis.read? (Text.unlines block.generated.lines) =
    some statements

/- Some statement of the block binds the name. -/
def Binds
    (block : Block)
    (name : String) : Prop :=
  ∃ statements, block.Reads statements ∧
    ∃ statement ∈ statements,
      name ∈ Lexis.bound statement.tokens

/- The name occurs in some statement of the block. -/
def Uses
    (block : Block)
    (name : String) : Prop :=
  ∃ statements, block.Reads statements ∧
    ∃ statement ∈ statements,
      name ∈ Lexis.names statement.tokens

/-
  The last statement of the block stands at the margin and
  binds the name of the node. All others bind names that the
  script keeps for itself.
-/
def BindsOnce (block : Block) : Prop :=
  ∃ first last,
    block.Reads (first ++ [last]) ∧
      (∀ statement ∈ first,
        ∀ name ∈ Lexis.bound statement.tokens,
          name ∈ reservedNames) ∧
      last.indent = 0 ∧
      Lexis.bound last.tokens = [block.name]

end Block

------------------------------------------------------------
-- Closed Blocks
------------------------------------------------------------

namespace Lexis

/- A name with an underscore opens no scope. -/
theorem not_mem_scopeSpelling
    {letters : List Char}
    (hMark : '_' ∈ letters) :
    letters ∉ scopeSpelling.1 := by
  have hScope : ∀ word ∈ scopeSpelling.1, '_' ∉ word := by
    decide
  intro hMem
  exact hScope letters hMem hMark

/- A name with an underscore is ordinary if it is kept. -/
theorem mem_reservedNames_of_isOrdinary
    {letters : List Char}
    (hOrdinary : isOrdinary letters)
    (hMark : '_' ∈ letters) :
    String.ofList letters ∈ reservedNames := by
  rw [reservedSpelling.2.mem_iff]
  simpa [isOrdinary, hMark] using
    (Bool.and_eq_true_iff.mp hOrdinary).1

/- What a statement binds if it works is kept. -/
theorem Works.mem_reservedNames
    {known : List (List Char)}
    {tokens : List Placed}
    (hWorks : Works known tokens)
    {name : String}
    (hBound : name ∈ Lexis.bound tokens) :
    name ∈ reservedNames := by
  rcases List.mem_map.mp hBound with ⟨letters, hLetters, rfl⟩
  exact (reservedSpelling.2.mem_iff letters).mpr
    (hWorks.bound letters hLetters)

/- A name that is neither known nor kept has no underscore. -/
theorem Uses.eq_of_mem_names
    {known : List (List Char)}
    {tokens : List Placed}
    (hUses : Lexis.Uses known tokens)
    {name : String}
    (hName : name ∈ names tokens)
    (hMark : '_' ∈ name.toList)
    (hFree : name ∉ reservedNames) :
    name.toList ∈ known := by
  rcases List.mem_map.mp hName with ⟨letters, hLetters, rfl⟩
  rw [String.toList_ofList] at hMark ⊢
  rcases mem_lettersOf_iff.mp hLetters with
    ⟨placed, hPlaced, hToken⟩
  rcases hUses.isKnown placed hPlaced letters hToken with
    hKnown | hOrdinary
  · exact hKnown
  · exact absurd
      (mem_reservedNames_of_isOrdinary hOrdinary hMark) hFree

end Lexis

namespace Block

variable {block : Block} {input : String}

/- A block that closes is read, and binds its name once. -/
theorem exists_reads
    (hOwn : '_' ∈ block.name.toList)
    (hInput : input.toList ∉ Lexis.scopeSpelling.1)
    (hClosed :
      Lexis.IsClosed block.name.toList [input.toList]
        block.generated.lines) :
    ∃ statements, block.Reads statements ∧ block.BindsOnce ∧
      ∀ statement ∈ statements,
        Lexis.Uses [block.name.toList, input.toList]
          statement.tokens := by
  rcases hClosed with
    ⟨first, last, hGather, hFirst, hIndent, hLast⟩
  have hUses :
      ∀ statement ∈ first ++ [last],
        Lexis.Uses [block.name.toList, input.toList]
          statement.tokens := by
    rw [List.forall_mem_append, List.forall_mem_singleton]
    refine ⟨?_, hLast.uses⟩
    intro statement hStatement
    apply (hFirst statement hStatement).uses.mono
    exact fun letters hLetters =>
      List.mem_cons_of_mem _ hLetters
  have hReads : block.Reads (first ++ [last]) := by
    apply Lexis.read?_unlines hGather
    intro statement hStatement
    apply (hUses statement hStatement).isSimple
    rw [List.forall_mem_cons, List.forall_mem_singleton]
    exact ⟨Lexis.not_mem_scopeSpelling hOwn, hInput⟩
  refine ⟨_, hReads, ⟨first, last, hReads, ?_, hIndent, ?_⟩,
    hUses⟩
  · intro statement hStatement name hName
    exact (hFirst statement hStatement).mem_reservedNames hName
  · rw [Lexis.bound, hLast.bound, List.map_singleton,
      String.ofList_toList]

/- What is bound once is the name of the block, or kept. -/
theorem BindsOnce.eq_of_binds
    (hOnce : block.BindsOnce)
    {name : String}
    (hBinds : block.Binds name)
    (hFree : name ∉ reservedNames) :
    name = block.name := by
  rcases hOnce with ⟨first, last, hReads, hFirst, -, hLast⟩
  rcases hBinds with
    ⟨statements, hOther, statement, hStatement, hName⟩
  rw [Reads, hReads, Option.some.injEq] at hOther
  subst hOther
  rw [List.mem_append, List.mem_singleton] at hStatement
  rcases hStatement with hStatement | rfl
  · exact absurd (hFirst statement hStatement name hName) hFree
  · rw [hLast] at hName
    exact List.mem_singleton.mp hName

/- The name of a block is bound in it. -/
theorem BindsOnce.binds_name
    (hOnce : block.BindsOnce) :
    block.Binds block.name := by
  rcases hOnce with ⟨first, last, hReads, -, -, hLast⟩
  refine ⟨_, hReads, last, ?_, ?_⟩
  · exact List.mem_append_right first List.mem_cons_self
  · rw [hLast]
    exact List.mem_cons_self

/- The first input of a block, or what stands for it. -/
def primaryInput (block : Block) : String :=
  block.inputs.headD missingInput

variable {settings : Settings} {registry : Registry}
variable {graph : Graph}

/- The first input of a block is the name of the first place. -/
theorem IsMade.head?_inputs
    (hMade : block.IsMade settings registry graph)
    (hSome : block.primaryInput ≠ missingInput) :
    ∃ place,
      (graph.inputsOf block.place).head? = some place ∧
        graph.nameAt? place = some block.primaryInput := by
  have hHead := congrArg List.head? hMade.inputs_eq
  rw [List.head?_map, List.head?_map] at hHead
  unfold primaryInput at hSome ⊢
  cases hInputs : block.inputs with
  | nil => exact absurd (by rw [hInputs]; rfl) hSome
  | cons name others =>
      rw [hInputs] at hHead
      exact Option.map_eq_some_iff.mp hHead

/- The first input of a block is a name. -/
theorem IsMade.isName_primaryInput
    (hMade : block.IsMade settings registry graph) :
    Text.isName block.primaryInput ∧
      block.primaryInput.toList ∉ Lexis.scopeSpelling.1 := by
  by_cases hNone : block.primaryInput = missingInput
  · rw [hNone]
    decide
  · rcases hMade.head?_inputs hNone with ⟨place, -, hName⟩
    rcases Option.map_eq_some_iff.mp hName with
      ⟨node, -, hNode⟩
    rw [← hNode]
    exact ⟨isName_nodeName node.kind node.id,
      Lexis.not_mem_scopeSpelling
        (underscore_mem_nodeName node.kind node.id)⟩

/- A name with an underscore is none of the words for loops. -/
theorem name_ne_for (block : Block) :
    block.name.toList ≠ ['f', 'o', 'r'] := by
  have hMark : '_' ∈ block.name.toList :=
    underscore_mem_nodeName block.node.kind block.node.id
  intro hFor
  rw [hFor] at hMark
  exact absurd hMark (by decide)

/- What a generator makes of a node closes with its name. -/
theorem IsMade.isClosed
    (hMade : block.IsMade settings .standard graph)
    (hIndent : Settings.isIndent settings.indent) :
    Lexis.IsClosed block.name.toList [block.primaryInput.toList]
      block.generated.lines := by
  have hUnit : Code.IsRoom settings.indent :=
    Settings.isRoom hIndent
  rcases (Registry.becomes_of_generate
      hMade.generated_eq).1 with
    ⟨items, hBecomes, hLines⟩
  have hName : Text.isName block.name :=
    isName_nodeName block.node.kind block.node.id
  have hInput : Text.isName block.primaryInput :=
    hMade.isName_primaryInput.1
  have hClosed :=
    Request.isClosed_of_becomes hBecomes hUnit hName
      block.name_ne_for hInput
  rw [hLines]
  exact hClosed

/- What a generator makes of a node is read as statements. -/
theorem IsMade.exists_reads
    (hMade : block.IsMade settings .standard graph)
    (hIndent : Settings.isIndent settings.indent) :
    ∃ statements, block.Reads statements ∧ block.BindsOnce ∧
      ∀ statement ∈ statements,
        Lexis.Uses
          [block.name.toList, block.primaryInput.toList]
          statement.tokens := by
  have hMark : '_' ∈ block.name.toList :=
    underscore_mem_nodeName block.node.kind block.node.id
  exact Block.exists_reads hMark hMade.isName_primaryInput.2
    (hMade.isClosed hIndent)

/- The only name of another node is that of the first input. -/
theorem IsMade.eq_primaryInput
    (hMade : block.IsMade settings .standard graph)
    (hIndent : Settings.isIndent settings.indent)
    {name : String}
    (hUses : block.Uses name)
    (hOther : name ≠ block.name)
    (hMark : '_' ∈ name.toList)
    (hFree : name ∉ reservedNames) :
    name = block.primaryInput := by
  rcases hMade.exists_reads hIndent with
    ⟨statements, hReads, -, hKnown⟩
  rcases hUses with
    ⟨others, hOthers, statement, hStatement, hName⟩
  rw [Reads, hReads, Option.some.injEq] at hOthers
  subst hOthers
  have hMem :=
    (hKnown statement hStatement).eq_of_mem_names hName hMark
      hFree
  rw [List.mem_cons, List.mem_singleton, String.toList_inj,
    String.toList_inj] at hMem
  exact hMem.resolve_left hOther

end Block

------------------------------------------------------------
-- Scripts
------------------------------------------------------------

/-
  A block behind others binds a name of its own, once. If it
  uses the name of another node, that node is where its first
  connection comes from. The block of that node comes before
  it and binds the name, and no other block does.
-/
structure Block.TakesInput
    (description : Description)
    (blocks before : List Block)
    (block : Block) : Prop where
  isIdentifier : Text.isIdentifier block.name
  unreserved : block.name ∉ reservedNames
  bindsOnce : block.BindsOnce
  exists_source :
    ∀ name ∈ description.nodeNames,
      block.Uses name → name ≠ block.name →
        ∃ source ∈ before,
          description.firstSource? block.node.id =
              some source.node.id ∧
            source.name = name ∧
            source.Binds name ∧
            ∀ other ∈ blocks, other.Binds name → other = source

namespace Script.IsMadeOf

variable {settings : Settings} {description : Description}
variable {graph : Graph} {blocks : List Block} {script : Script}

/- No two blocks have one name. -/
theorem eq_of_name_eq
    {registry : Registry}
    (hMade :
      script.IsMadeOf settings registry description graph
        blocks)
    {block other : Block}
    (hBlock : block ∈ blocks)
    (hOther : other ∈ blocks)
    (hName : block.name = other.name) :
    block = other := by
  have hNames := hMade.isSound.names
  rw [List.map_map] at hNames
  exact List.inj_on_of_nodup_map hNames hBlock hOther hName

/- The name of a block is not one that the script keeps. -/
theorem unreserved
    {registry : Registry}
    (hMade :
      script.IsMadeOf settings registry description graph
        blocks)
    {block : Block}
    (hBlock : block ∈ blocks) :
    block.name ∉ reservedNames :=
  hMade.isSound.unreserved block.entry
    (List.mem_map_of_mem hBlock)

/- The inputs of a block are the blocks of earlier nodes. -/
theorem exists_input
    {registry : Registry}
    (hMade :
      script.IsMadeOf settings registry description graph
        blocks)
    {before after : List Block}
    {block : Block}
    (hBlocks : blocks = before ++ block :: after)
    {place : Nat}
    (hPlace : place ∈ graph.inputsOf block.place) :
    ∃ source ∈ before, source.place = place := by
  have hReady :
      graph.Ready []
        (before.map Block.place ++
          block.place :: after.map Block.place) := by
    apply Graph.ready_of_isOrder
      (Graph.isClosed_of_ofDescription hMade.graph_eq)
    have hOrder :=
      Graph.isOrder_of_order hMade.graph_eq hMade.order_eq
    simpa [hBlocks] using hOrder
  exact List.mem_map.mp (hReady.mem_of_mem_inputsOf hPlace)

/- The first input of a block is the block of its first source. -/
theorem exists_source
    {registry : Registry}
    (hMade :
      script.IsMadeOf settings registry description graph
        blocks)
    {before after : List Block}
    {block : Block}
    (hBlocks : blocks = before ++ block :: after)
    (hSome : block.primaryInput ≠ missingInput) :
    ∃ source ∈ before,
      description.firstSource? block.node.id =
          some source.node.id ∧
        source.name = block.primaryInput := by
  have hNodes := (Graph.ofDescription_eq_ok_iff.mp
    hMade.graph_eq).1
  -- The node in a place has the key in that place.
  have hKey :
      ∀ other ∈ blocks,
        description.nodes.keys[other.place]? =
          some other.node.id := by
    intro other hOther
    have hNode := (hMade.made other hOther).node_eq
    rw [hNodes, Graph.nodesOf, List.getElem?_map] at hNode
    rcases Option.map_eq_some_iff.mp hNode with
      ⟨entry, hEntry, hEq⟩
    rw [Table.keys, Entries.keys, List.getElem?_map, hEntry,
      ← hEq]
    rfl
  have hBlock : block ∈ blocks := by
    rw [hBlocks]
    exact List.mem_append_right before List.mem_cons_self
  rcases (hMade.made block hBlock).head?_inputs hSome with
    ⟨place, hHead, hName⟩
  rcases hMade.exists_input hBlocks
      (List.mem_of_head? hHead) with
    ⟨source, hSource, rfl⟩
  have hSourceMem : source ∈ blocks := by
    rw [hBlocks]
    exact List.mem_append_left _ hSource
  rcases Graph.exists_firstSource? hMade.graph_eq
      (hKey block hBlock) hHead with
    ⟨id, hFirst, hId⟩
  rw [hKey source hSourceMem, Option.some.injEq] at hId
  rw [Graph.nameAt?, (hMade.made source hSourceMem).node_eq,
    Option.map_some, Option.some.injEq] at hName
  exact ⟨source, hSource, by rw [hFirst, hId], hName⟩

end Script.IsMadeOf

namespace Compiler

/-
  Every block of a script binds working names, and the name of
  its node with the last statement and nowhere else. Of other
  nodes it uses the one that its first connection comes from:
  an earlier block has bound that name, and no other block
  binds it.
-/
theorem names_of_compile
    (settings : Settings)
    (description : Description)
    (script : Script)
    (hCompile :
      ((ofSettings settings).compile description).outcome =
        .ok script) :
    ∃ graph blocks,
      script.IsMadeOf settings .standard description graph
        blocks ∧
      ∀ before block after,
        blocks = before ++ block :: after →
          block.TakesInput description blocks before := by
  have hCheck := check_of_compile hCompile
  have hIndent : Settings.isIndent settings.indent :=
    (Settings.check_eq_ok_iff.mp hCheck).1
  rcases exists_isMadeOf hCompile with ⟨graph, blocks, hMade⟩
  have hOnce : ∀ block ∈ blocks, block.BindsOnce := by
    intro block hBlock
    rcases (hMade.made block hBlock).exists_reads hIndent with
      ⟨_, -, hOnce, -⟩
    exact hOnce
  refine ⟨graph, blocks, hMade, ?_⟩
  intro before block after hBlocks
  have hBlock : block ∈ blocks := by
    rw [hBlocks]
    exact List.mem_append_right before List.mem_cons_self
  refine ⟨isIdentifier_nodeName block.node.kind block.node.id,
    hMade.unreserved hBlock, hOnce block hBlock, ?_⟩
  intro name hName hUses hOther
  rcases List.mem_map.mp hName with ⟨⟨id, node⟩, -, hNode⟩
  have hMark : '_' ∈ name.toList := by
    rw [← hNode]
    exact underscore_mem_nodeName node.kind id
  have hFree : name ∉ reservedNames :=
    (conditions_of_compile hCompile).2.2.1.2 name hName
  have hInput : name = block.primaryInput :=
    (hMade.made block hBlock).eq_primaryInput hIndent hUses
      hOther hMark hFree
  have hSome : block.primaryInput ≠ missingInput := by
    intro hNone
    rw [hInput, hNone] at hMark
    exact absurd hMark (by decide)
  rcases hMade.exists_source hBlocks hSome with
    ⟨source, hSource, hFirst, hSame⟩
  rw [← hInput] at hSame
  have hSourceMem : source ∈ blocks := by
    rw [hBlocks]
    exact List.mem_append_left _ hSource
  refine ⟨source, hSource, hFirst, hSame, ?_, ?_⟩
  · rw [← hSame]
    exact (hOnce source hSourceMem).binds_name
  · intro other hMem hBinds
    apply hMade.eq_of_name_eq hMem hSourceMem
    rw [hSame]
    exact ((hOnce other hMem).eq_of_binds hBinds hFree).symm

/- A loader hands its images on to an augmentation. -/
theorem names_of_linked_blocks :
    let loader :=
      Description.empty.putNode ⟨"a"⟩ "DataLoader" .empty
    let linked :=
      (loader.putNode ⟨"b"⟩ "ImageAugmentation" .empty).connect
        ⟨"a"⟩ ⟨"b"⟩
    ∃ script,
      ((ofSettings .standard).compile linked).outcome =
          .ok script ∧
        ∃ graph blocks,
          script.IsMadeOf .standard .standard linked graph
            blocks ∧
          ∀ before block after,
            blocks = before ++ block :: after →
              block.TakesInput linked blocks before := by
  intro loader linked
  have hConnections :
      linked.connections.values = [.between ⟨"a"⟩ ⟨"b"⟩] := rfl
  have hLeads :
      ∀ {first last : NodeId},
        linked.Leads first last →
          first = ⟨"a"⟩ ∧ last = ⟨"b"⟩ := by
    rintro _ _ ⟨connection, hConnection, rfl, rfl⟩
    rw [hConnections, List.mem_singleton] at hConnection
    rw [hConnection]
    exact ⟨rfl, rfl⟩
  have hCompile :
      ∃ script,
        ((ofSettings .standard).compile linked).outcome =
          .ok script := by
    refine exists_compile rfl rfl ?_ ?_ ?_ ?_ ⟨?_, ?_⟩
    · rw [Description.IsLinked, hConnections,
        List.forall_mem_singleton]
      decide
    · -- A way back would have to leave the augmentation.
      intro id hCycle
      rcases Relation.TransGen.head'_iff.mp hCycle with
        ⟨next, hFirst, hRest⟩
      rcases hLeads hFirst with ⟨rfl, rfl⟩
      rcases Relation.ReflTransGen.cases_head hRest with
        hSame | ⟨other, hNext, -⟩
      · exact absurd hSame (by decide)
      · exact absurd (hLeads hNext).1 (by decide)
    · decide
    · decide
    · decide
    · decide
  rcases hCompile with ⟨script, hScript⟩
  exact ⟨script, hScript,
    names_of_compile .standard linked script hScript⟩

end Compiler

end PipelineScript
