import PipelineScript.Proofs.Import.Packages
import PipelineScript.Proofs.Script.DataFlow

/-
  The lines of a script, whatever texts went into them.

  No text of a description gets out of the line it was put
  into: not one line has a control character but tabs, and so
  the line feeds of a script are those between its lines.

  Key definitions include:
    * `Lexis.IsLegibleText`
    * `Directive.isPlain`
    * `Script.IsLaidOut`

  Key theorems include:
    * `Directive.isLegibleText_render`
    * `Script.IsMadeOf.isLegibleText_body`
    * `Compiler.lines_of_compile`
-/

namespace PipelineScript

------------------------------------------------------------
-- Legible Texts
------------------------------------------------------------

namespace Lexis

/- All characters of a text can stand on a line. -/
def IsLegibleText (text : String) : Prop :=
  ∀ c ∈ text.toList, isLegible c

/- A legible text behind a legible text. -/
theorem IsLegibleText.append
    {first second : String}
    (hFirst : IsLegibleText first)
    (hSecond : IsLegibleText second) :
    IsLegibleText (first ++ second) := by
  unfold IsLegibleText
  rw [String.toList_append, List.forall_mem_append]
  exact ⟨hFirst, hSecond⟩

/- A literal is legible if its letters are. -/
theorem isLegibleText_literal
    {letters : List Char}
    (hLetters : letters.all isLegible) :
    IsLegibleText (String.ofList letters) := by
  unfold IsLegibleText
  rw [String.toList_ofList]
  exact List.all_eq_true.mp hLetters

/- A text without control characters. -/
def isPlainText (text : String) : Bool :=
  text.toList.all fun c => !Text.isControl c

/- A text without control characters is legible. -/
theorem isLegibleText_of_isPlainText
    {text : String}
    (hPlain : isPlainText text) :
    IsLegibleText text := by
  intro c hMem
  rw [isLegible, List.all_eq_true.mp hPlain c hMem,
    Bool.or_true]

/- Room is legible. -/
theorem isLegibleText_of_isRoom
    {unit : String}
    (hUnit : Code.IsRoom unit) :
    IsLegibleText unit := by
  intro c hMem
  rcases Bool.or_eq_true_iff.mp (hUnit c hMem) with hC | hC
  · rw [beq_iff_eq.mp hC]
    rfl
  · rw [beq_iff_eq.mp hC]
    rfl

end Lexis

------------------------------------------------------------
-- Imports
------------------------------------------------------------

namespace Directive

/- All parts of a request have no control characters. -/
def isPlain (directive : Directive) : Bool :=
  (directive.path ::
    (directive.otherName.toList ++ directive.member.toList)).all
      Lexis.isPlainText

variable {directive : Directive}

/- A request is plain if each of its parts is. -/
theorem isPlain_iff :
    directive.isPlain ↔
      Lexis.isPlainText directive.path ∧
        (∀ name, directive.otherName = some name →
          Lexis.isPlainText name) ∧
        ∀ name, directive.member = some name →
          Lexis.isPlainText name := by
  simp [isPlain]

/- What can be seen of a name is the name. -/
theorem eq_of_visible?
    {name : Option String}
    {seen : String}
    (hSeen : visible? name = some seen) :
    name = some seen :=
  (Option.filter_eq_some_iff.mp hSeen).1

/- A normal path has no control characters of its own. -/
theorem isPlainText_normalizedPath
    {path : String}
    (hPlain : Lexis.isPlainText path) :
    Lexis.isPlainText (normalizedPath path) := by
  unfold Lexis.isPlainText normalizedPath
  rw [String.toList_ofList, List.all_map, List.all_eq_true]
  intro c hMem
  have hOwn :=
    List.all_eq_true.mp hPlain c (Text.mem_of_mem_trimChars hMem)
  unfold dotted
  simp only [Function.comp_apply]
  split
  · rfl
  · exact hOwn

/- The normal form of a plain request is plain. -/
theorem isPlain_normalized
    (hPlain : directive.isPlain) :
    directive.normalized.isPlain := by
  rw [isPlain_iff] at hPlain ⊢
  refine ⟨isPlainText_normalizedPath hPlain.1, ?_, ?_⟩
  · intro name hName
    exact hPlain.2.1 name (eq_of_visible? hName)
  · intro name hName
    exact hPlain.2.2 name (eq_of_visible? hName)

/- A plain request is rendered as a legible line. -/
theorem isLegibleText_render
    (hPlain : directive.isPlain) :
    Lexis.IsLegibleText directive.render := by
  rcases isPlain_iff.mp hPlain with ⟨hPath, hOther, hMember⟩
  have hText {text : String} (hText : Lexis.isPlainText text) :
      Lexis.IsLegibleText text :=
    Lexis.isLegibleText_of_isPlainText hText
  have hWord {letters : List Char}
      (hLetters : letters.all Lexis.isLegible) :
      Lexis.IsLegibleText (String.ofList letters) :=
    Lexis.isLegibleText_literal hLetters
  unfold render
  split
  · next otherName member hOtherName hMemberName =>
      exact (((((hWord rfl).append (hText hPath)).append
        (hWord rfl)).append (hText (hMember _ hMemberName))).append
        (hWord rfl)).append (hText (hOther _ hOtherName))
  · next otherName hOtherName _ =>
      exact (((hWord rfl).append (hText hPath)).append
        (hWord rfl)).append (hText (hOther _ hOtherName))
  · next member _ hMemberName =>
      exact (((hWord rfl).append (hText hPath)).append
        (hWord rfl)).append (hText (hMember _ hMemberName))
  · exact (hWord rfl).append (hText hPath)

end Directive

/- The requests of the generators are plain. -/
theorem NodeKind.isPlain_of_mem_imports
    (kind : NodeKind)
    {directive : Directive}
    (hMem : directive ∈ kind.imports) :
    directive.isPlain := by
  revert directive
  apply forall_mem_imports
  · decide
  · decide
  · decide

------------------------------------------------------------
-- Remarks
------------------------------------------------------------

namespace Layout

/- A line of a remark begins with a mark and is legible. -/
theorem commentLine_spec (line : String) :
    (commentLine line).toList.head? = some '#' ∧
      Lexis.IsLegibleText (commentLine line) := by
  unfold commentLine
  split
  · exact ⟨rfl, Lexis.isLegibleText_literal rfl⟩
  · refine ⟨?_, .append (Lexis.isLegibleText_literal rfl) ?_⟩
    · rw [String.toList_append]
      rfl
    · intro c hMem
      exact Lexis.isLegible_of_mem_comment hMem

/- The lines of all remarks. -/
def commentLines (remarks : List String) : List String :=
  remarks.flatMap fun remark =>
    (Text.lines remark).map commentLine

/- All lines of remarks begin with a mark and are legible. -/
theorem commentLines_spec (remarks : List String) :
    ∀ line ∈ commentLines remarks,
      line.toList.head? = some '#' ∧
        Lexis.IsLegibleText line := by
  intro line hLine
  rcases List.mem_flatMap.mp hLine with ⟨remark, -, hRemark⟩
  rcases List.mem_map.mp hRemark with ⟨original, -, rfl⟩
  exact commentLine_spec original

------------------------------------------------------------
-- All Lines
------------------------------------------------------------

variable {settings : Settings} {imports : ImportBlock}
variable {body : List String}

/- An empty line is legible. -/
theorem isLegibleText_empty : Lexis.IsLegibleText "" :=
  Lexis.isLegibleText_literal rfl

/- The remarks are legible. -/
theorem isLegibleText_header (remarks : List String) :
    ∀ line ∈ headerLines remarks, Lexis.IsLegibleText line := by
  unfold headerLines
  split
  · exact List.forall_mem_nil _
  · rw [List.forall_mem_append, List.forall_mem_singleton]
    refine ⟨?_, isLegibleText_empty⟩
    intro line hLine
    exact (commentLines_spec remarks line hLine).2

/- Imports are legible if they are plain. -/
theorem isLegibleText_imports
    (hImports :
      ∀ directive ∈ imports.directives, directive.isPlain) :
    ∀ line ∈ importLines imports, Lexis.IsLegibleText line := by
  unfold importLines
  split
  · exact List.forall_mem_nil _
  · rw [List.forall_mem_append, List.forall_mem_singleton]
    refine ⟨?_, isLegibleText_empty⟩
    intro line hLine
    rcases List.mem_map.mp hLine with ⟨directive, hMem, rfl⟩
    exact Directive.isLegibleText_render
      (hImports directive hMem)

/- A line in the routine is empty, or it begins with room. -/
theorem bodyLine_spec (indent line : String) :
    bodyLine indent line = "" ∨
      indent.toList <+: (bodyLine indent line).toList := by
  unfold bodyLine
  split
  · exact Or.inl rfl
  · right
    rw [String.toList_append]
    exact List.prefix_append _ _

/- The routine is legible if its body is. -/
theorem isLegibleText_routine
    (hIndent : Lexis.IsLegibleText settings.indent)
    (hEntry : Lexis.IsLegibleText settings.entrypoint)
    (hBody : ∀ line ∈ body, Lexis.IsLegibleText line) :
    ∀ line ∈ routineLines settings body,
      Lexis.IsLegibleText line := by
  unfold routineLines
  simp only [List.forall_mem_append, List.forall_mem_singleton]
  refine ⟨⟨⟨?_, ?_⟩, ?_⟩, ?_⟩
  · exact ((Lexis.isLegibleText_literal rfl).append
      hEntry).append (Lexis.isLegibleText_literal rfl)
  · unfold deviceLines
    split
    · rw [List.forall_mem_cons, List.forall_mem_singleton]
      refine ⟨hIndent.append ?_, isLegibleText_empty⟩
      exact (Lexis.isLegibleText_literal rfl).append
        (Lexis.isLegibleText_literal rfl)
    · exact List.forall_mem_nil _
  · intro line hLine
    rcases List.mem_map.mp hLine with ⟨made, hMade, rfl⟩
    unfold bodyLine
    split
    · exact isLegibleText_empty
    · exact hIndent.append (hBody made hMade)
  · exact hIndent.append (Lexis.isLegibleText_literal rfl)

/- The call of the routine is legible. -/
theorem isLegibleText_call
    (hIndent : Lexis.IsLegibleText settings.indent)
    (hEntry : Lexis.IsLegibleText settings.entrypoint) :
    ∀ line ∈ callLines settings, Lexis.IsLegibleText line := by
  unfold callLines
  simp only [List.forall_mem_cons]
  refine ⟨isLegibleText_empty, isLegibleText_empty, ?_, ?_,
    List.forall_mem_nil _⟩
  · exact Lexis.isLegibleText_literal rfl
  · exact (hIndent.append hEntry).append
      (Lexis.isLegibleText_literal rfl)

/- A script is legible if what is put into it is. -/
theorem isLegibleText_lines
    (hIndent : Lexis.IsLegibleText settings.indent)
    (hEntry : Lexis.IsLegibleText settings.entrypoint)
    (remarks : List String)
    (hImports :
      ∀ directive ∈ imports.directives, directive.isPlain)
    (hBody : ∀ line ∈ body, Lexis.IsLegibleText line) :
    ∀ line ∈ lines settings remarks imports body,
      Lexis.IsLegibleText line := by
  unfold lines
  simp only [List.forall_mem_append]
  refine ⟨⟨⟨?_, ?_⟩, ?_⟩, ?_⟩
  · exact isLegibleText_header remarks
  · exact isLegibleText_imports hImports
  · exact isLegibleText_routine hIndent hEntry hBody
  · exact isLegibleText_call hIndent hEntry

end Layout

------------------------------------------------------------
-- Texts Made of Legible Lines
------------------------------------------------------------

namespace Text

variable {lines : List String}
variable (hLines : ∀ line ∈ lines, Lexis.IsLegibleText line)

include hLines

/- Legible lines are what their text is split into. -/
theorem splitOn_unlines_of_isLegibleText :
    List.splitOn '\n' (unlines lines).toList =
      (lines ++ [""]).map String.toList := by
  have hBreaks : ∀ line ∈ lines, '\n' ∉ line.toList := by
    intro line hLine hBreak
    exact absurd (hLines line hLine '\n' hBreak) (by decide)
  rw [splitOn_unlines hBreaks, List.map_append]
  rfl

/- A text of legible lines has breaks and tabs for controls. -/
theorem control_of_mem_unlines
    {c : Char}
    (hMem : c ∈ (unlines lines).toList)
    (hControl : isControl c) :
    c = '\n' ∨ c = '\t' := by
  rcases mem_unlines hMem with hBreak | ⟨line, hLine, hMem⟩
  · exact Or.inl hBreak
  · have hLegible := hLines line hLine c hMem
    rw [Lexis.isLegible, hControl, Bool.not_true,
      Bool.or_false, beq_iff_eq] at hLegible
    exact Or.inr hLegible

end Text

------------------------------------------------------------
-- Scripts
------------------------------------------------------------

/-
  The lines of a script. There are comments and an empty line
  if there are remarks, imports and an empty line if there are
  any, the head of the routine and the choice of the device,
  a line for every line of a block, the message at the end,
  and the call. Nothing is behind the last line feed.
-/
structure Script.IsLaidOut
    (settings : Settings)
    (description : Description)
    (blocks : List Block)
    (comments body : List String)
    (script : Script) : Prop where
  lines_eq :
    List.splitOn '\n' script.text.toList =
      ((if description.remarks.isEmpty then
          []
        else
          comments ++ [""])
        ++ (if script.imports.isEmpty then
          []
        else
          script.imports.lines ++ [""])
        ++ ["def " ++ settings.entrypoint ++ "():"]
        ++ (if settings.deviceSetup then
          [settings.indent ++ deviceSetup, ""]
        else
          [])
        ++ body
        ++ [settings.indent
            ++ "print('Pipeline execution complete.')",
          "", "", "if __name__ == '__main__':",
          settings.indent ++ settings.entrypoint ++ "()"]
        ++ [""]).map String.toList
  isMarked : ∀ line ∈ comments, line.toList.head? = some '#'
  length_eq : script.imports.lines.length = script.imports.size
  body_eq :
    body =
      (blocks.flatMap fun block => block.generated.lines).map
        (Layout.bodyLine settings.indent)
  isIndented :
    ∀ line ∈ body,
      line = "" ∨ settings.indent.toList <+: line.toList
  control :
    ∀ c ∈ script.text.toList,
      Text.isControl c → c = '\n' ∨ c = '\t'

/- What settings put into every script is legible. -/
theorem Settings.isLegibleText_of_check
    {settings : Settings}
    (hCheck : settings.check.outcome = .ok ()) :
    Lexis.IsLegibleText settings.indent ∧
      Lexis.IsLegibleText settings.entrypoint := by
  rcases check_eq_ok_iff.mp hCheck with ⟨hIndent, hEntry⟩
  exact ⟨Lexis.isLegibleText_of_isRoom (isRoom hIndent),
    isLegible_of_isName (Bool.and_eq_true_iff.mp hEntry).1⟩

namespace Script.IsMadeOf

variable {settings : Settings} {description : Description}
variable {graph : Graph} {blocks : List Block} {script : Script}

/- The lines of all blocks are legible. -/
theorem isLegibleText_body
    (hMade :
      script.IsMadeOf settings .standard description graph
        blocks)
    (hIndent : Settings.isIndent settings.indent) :
    ∀ line ∈ blocks.flatMap fun block => block.generated.lines,
      Lexis.IsLegibleText line := by
  intro line hLine
  rcases List.mem_flatMap.mp hLine with ⟨block, hBlock, hMem⟩
  rcases (hMade.made block hBlock).isClosed hIndent with
    ⟨first, last, hGather, -⟩
  exact Lexis.isLegible_of_gather hGather line.toList
    (List.mem_map_of_mem hMem)

/- The imports of a script are plain if the required ones are. -/
theorem isPlain_imports
    (hMade :
      script.IsMadeOf settings .standard description graph
        blocks)
    (hPlain :
      ∀ directive ∈ settings.imports.directives,
        directive.isPlain) :
    ∀ directive ∈ script.imports.directives,
      directive.isPlain := by
  intro directive hDirective
  rcases List.mem_map.mp
      ((hMade.mem_imports directive).mp hDirective) with
    ⟨asked, hAsked, rfl⟩
  apply Directive.isPlain_normalized
  rcases List.mem_append.mp hAsked with hDefault | hBlocks
  · exact hPlain asked (List.mem_append_left _ hDefault)
  · rcases List.mem_flatMap.mp hBlocks with
      ⟨block, hBlock, hRequest⟩
    rcases List.mem_append.mp hRequest with hOwn | hTag
    · have hImports :=
        (Registry.becomes_of_generate
          (hMade.made block hBlock).generated_eq).2
      rw [hImports] at hOwn
      exact NodeKind.isPlain_of_mem_imports _ hOwn
    · exact hPlain asked
        (Requirements.mem_directives_of_mem_forTag hTag)

/- All lines of a script are legible. -/
theorem isLegibleText_lines
    (hMade :
      script.IsMadeOf settings .standard description graph
        blocks)
    (hCheck : settings.check.outcome = .ok ())
    (hPlain :
      ∀ directive ∈ settings.imports.directives,
        directive.isPlain) :
    ∀ line ∈ Layout.lines settings description.remarks
        script.imports
        (blocks.flatMap fun block => block.generated.lines),
      Lexis.IsLegibleText line := by
  have hIndent := (Settings.check_eq_ok_iff.mp hCheck).1
  rcases Settings.isLegibleText_of_check hCheck with
    ⟨hUnit, hName⟩
  exact Layout.isLegibleText_lines hUnit hName
    description.remarks (hMade.isPlain_imports hPlain)
    (hMade.isLegibleText_body hIndent)

end Script.IsMadeOf

namespace Compiler

/-
  A description does not put lines into a script, whatever
  texts it has in its tags, keys, options and remarks. The
  script is split into the lines of its layout, with control
  characters nowhere but between lines, and tabs.
-/
theorem lines_of_compile
    (settings : Settings)
    (description : Description)
    (script : Script)
    (hPlain :
      ∀ directive ∈ settings.imports.directives,
        directive.isPlain)
    (hCompile :
      ((ofSettings settings).compile description).outcome =
        .ok script) :
    ∃ graph blocks comments body,
      script.IsMadeOf settings .standard description graph
        blocks ∧
      script.IsLaidOut settings description blocks comments
        body := by
  rcases exists_isMadeOf hCompile with ⟨graph, blocks, hMade⟩
  have hLegible :=
    hMade.isLegibleText_lines (check_of_compile hCompile) hPlain
  refine ⟨graph, blocks,
    Layout.commentLines description.remarks, _, hMade, ?_, ?_,
    ?_, rfl, ?_, ?_⟩
  · rw [hMade.text_eq,
      Text.splitOn_unlines_of_isLegibleText hLegible]
    simp only [Layout.lines, Layout.routineLines,
      Layout.callLines, List.append_assoc]
    rfl
  · intro line hLine
    exact (Layout.commentLines_spec _ line hLine).1
  · rw [ImportBlock.lines, List.length_map,
      ImportBlock.size_eq]
  · intro line hLine
    rcases List.mem_map.mp hLine with ⟨made, -, rfl⟩
    exact Layout.bodyLine_spec settings.indent made
  · intro c hMem hControl
    rw [hMade.text_eq] at hMem
    exact Text.control_of_mem_unlines hLegible hMem hControl

/- Breaks in a tag, a key and a remark open no lines. -/
theorem lines_of_broken_description :
    let broken :=
      (Description.empty.putNode ⟨"a\nb"⟩ "c\rd" .empty).describe
        "e\rf\x0cg"
    (∀ directive ∈ Settings.standard.imports.directives,
        directive.isPlain) ∧
      ∃ script,
        ((ofSettings .standard).compile broken).outcome =
            .ok script ∧
          ∃ graph blocks comments body,
            script.IsMadeOf .standard .standard broken graph
              blocks ∧
            script.IsLaidOut .standard broken blocks comments
              body := by
  intro broken
  have hPlain :
      ∀ directive ∈ Settings.standard.imports.directives,
        directive.isPlain := by
    decide
  have hConnections : broken.connections.values = [] := rfl
  have hCompile :
      ∃ script,
        ((ofSettings .standard).compile broken).outcome =
          .ok script := by
    refine exists_compile rfl rfl ?_ ?_ ?_ ?_ ⟨?_, ?_⟩
    · simp [Description.IsLinked, hConnections]
    · intro id hCycle
      rcases Relation.TransGen.head'_iff.mp hCycle with
        ⟨next, ⟨connection, hConnection, -⟩, -⟩
      rw [hConnections] at hConnection
      exact absurd hConnection List.not_mem_nil
    · decide
    · decide
    · decide
    · decide
  rcases hCompile with ⟨script, hScript⟩
  exact ⟨hPlain, script, hScript,
    lines_of_compile .standard broken script hPlain hScript⟩

end Compiler

end PipelineScript
