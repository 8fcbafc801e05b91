import PipelineScript.Proofs.Lexis.Encoding
import PipelineScript.Proofs.Script.Header

/-
  What can declare an encoding at the top of a script.

  Nothing keeps a remark from it: all that is escaped in a
  comment are control characters. Without remarks, it takes a
  break in the first import, or a first block right below the
  head of the routine.

  Key definitions include:
    * `Script.DeclaresEncoding`
    * `Layout.SetsEncoding`

  Key theorems include:
    * `Layout.declares_commentOf_iff`
    * `Compiler.declares_encoding_iff`
-/

namespace PipelineScript

/- One of the first two lines of a script is a declaration. -/
def Script.DeclaresEncoding (script : Script) : Prop :=
  ∃ line ∈ (Text.lines script.text).take 2,
    Encoding.Declares line

namespace Layout

/-
  How a declaration comes to be on the first two lines: with a
  name of an encoding in one of the first two lines of remarks
  as they are escaped, as the second line of the first import,
  or as the first line of the first block.
-/
inductive SetsEncoding
    (settings : Settings)
    (remarks : List String)
    (imports : ImportBlock)
    (body : List String) : Prop where
  | remark (line : List Char)
      (hLine : line ∈ (remarkTexts remarks).take 2)
      (hVisible : line.all Text.isBlank = false)
      (hNamed :
        Encoding.IsNamedIn
          (line.flatMap Literal.commentChar)) :
      SetsEncoding settings remarks imports body
  | request (directive : Directive) (line : String)
      (hRemarks : remarks = [])
      (hFirst : imports.directives.head? = some directive)
      (hLine :
        (Text.writtenLines directive.render)[1]? = some line)
      (hDeclares : Encoding.Declares line) :
      SetsEncoding settings remarks imports body
  | block (written line : String)
      (hRemarks : remarks = [])
      (hImports : imports.directives = [])
      (hDevice : settings.deviceSetup = false)
      (hFirst : body.head? = some written)
      (hLine :
        (Text.writtenLines
          (bodyLine settings.indent written)).head? = some line)
      (hDeclares : Encoding.Declares line) :
      SetsEncoding settings remarks imports body

------------------------------------------------------------
-- Lines That Declare Nothing
------------------------------------------------------------

/- A comment declares what is named in the escaped line. -/
theorem declares_commentOf_iff (line : List Char) :
    Encoding.Declares (commentOf line) ↔
      line.all Text.isBlank = false ∧
        Encoding.IsNamedIn
          (line.flatMap Literal.commentChar) := by
  unfold commentOf
  cases line.all Text.isBlank with
  | true => simpa using by decide
  | false =>
      simp [Encoding.declares_comment_iff]

/- A letter is neither room nor a mark in front of a comment. -/
theorem isMargin_of_isAlpha
    {c : Char}
    (hAlpha : c.isAlpha) :
    Encoding.isMargin c = false := by
  simp only [Encoding.isMargin, Bool.or_eq_false_iff,
    beq_eq_false_iff_ne]
  refine ⟨⟨?_, ?_⟩, ?_⟩ <;> rintro rfl <;> cases hAlpha

/- Code declares nothing, indented or not. -/
theorem not_declares_code
    {indent code : String}
    (hIndent : Code.IsRoom indent)
    (hCode : Text.startsWithLetter code) :
    ¬ Encoding.Declares (indent ++ code) := by
  rw [Text.startsWithLetter_iff] at hCode
  rcases hCode with ⟨c, rest, hCode, hAlpha⟩
  apply Encoding.not_declares_of_start
  · rw [String.toList_append, hCode]
  · intro d hMem
    exact Bool.or_eq_true_iff.mpr (Or.inl (hIndent d hMem))
  · exact isMargin_of_isAlpha hAlpha
  · exact (Text.isBreak_of_isAlpha hAlpha).2

/- Nor does code without an indent. -/
theorem not_declares_of_startsWithLetter
    {code : String}
    (hCode : Text.startsWithLetter code) :
    ¬ Encoding.Declares code := by
  have hRoom : Code.IsRoom "" := List.forall_mem_nil _
  have hNone := not_declares_code hRoom hCode
  rwa [String.empty_append] at hNone

/- An empty line declares nothing. -/
theorem not_declares_empty : ¬ Encoding.Declares "" := by
  decide

------------------------------------------------------------
-- First Lines
------------------------------------------------------------

/- The second of two lines counts if the first does not. -/
theorem exists_mem_take_two_iff
    {p : String → Prop}
    {first : String}
    (hFirst : ¬ p first)
    (others : List String) :
    (∃ line ∈ (first :: others).take 2, p line) ↔
      ∃ line, others.head? = some line ∧ p line := by
  cases others with
  | nil => simp [hFirst]
  | cons second others => simp [hFirst]

/- The first line of all is the first of what was written. -/
theorem head?_flatMap_writtenLines
    (written : String)
    (others : List String) :
    ((written :: others).flatMap Text.writtenLines).head? =
      (Text.writtenLines written).head? := by
  rw [List.flatMap_cons, List.head?_append]
  cases hLines : Text.writtenLines written with
  | nil => exact absurd hLines (Text.writtenLines_ne_nil written)
  | cons first more => rfl

variable {settings : Settings} {imports : ImportBlock}
variable {remarks body : List String}

/- Comments declare what is named in the lines of remarks. -/
theorem exists_declares_comment_iff (remarks : List String) :
    (∃ comment ∈ (commentLines remarks).take 2,
        Encoding.Declares comment) ↔
      ∃ line ∈ (remarkTexts remarks).take 2,
        line.all Text.isBlank = false ∧
          Encoding.IsNamedIn
            (line.flatMap Literal.commentChar) := by
  rw [commentLines_eq_map, ← List.map_take]
  constructor
  · rintro ⟨comment, hComment, hDeclares⟩
    rcases List.mem_map.mp hComment with ⟨line, hLine, rfl⟩
    exact ⟨line, hLine,
      (declares_commentOf_iff line).mp hDeclares⟩
  · rintro ⟨line, hLine, hNamed⟩
    exact ⟨_, List.mem_map_of_mem hLine,
      (declares_commentOf_iff line).mpr hNamed⟩

/- Behind remarks, only their comments can declare. -/
theorem exists_declares_behind_remarks
    (hRemarks : remarks ≠ []) :
    (∃ line ∈
        (headerLines remarks ++
          (codeLines settings imports body).flatMap
            Text.writtenLines).take 2,
        Encoding.Declares line) ↔
      ∃ comment ∈ (commentLines remarks).take 2,
        Encoding.Declares comment := by
  rcases exists_codeLine settings imports body with
    ⟨first, others, hCode, hFirst⟩
  have hNone := not_declares_of_startsWithLetter hFirst
  rw [headerLines_eq, if_neg hRemarks, hCode]
  cases commentLines remarks with
  | nil => simp [not_declares_empty, hNone]
  | cons comment comments =>
      cases comments with
      | nil => simp [not_declares_empty]
      | cons second comments => simp

/- Where imports begin, only the first can declare. -/
theorem exists_declares_of_imports
    {directive : Directive}
    {directives : List Directive}
    (hImports : imports.directives = directive :: directives) :
    (∃ line ∈
        ((codeLines settings imports body).flatMap
          Text.writtenLines).take 2,
        Encoding.Declares line) ↔
      ∃ line,
        (Text.writtenLines directive.render)[1]? = some line ∧
          Encoding.Declares line := by
  have hNext :
      ∃ next others second,
        codeLines settings imports body =
            directive.render :: next :: others ∧
          (Text.writtenLines next).head? = some second ∧
          ¬ Encoding.Declares second := by
    unfold codeLines importLines ImportBlock.lines
    rw [ImportBlock.isEmpty_eq, hImports]
    cases directives with
    | nil =>
        exact ⟨"", _, "", rfl, rfl, not_declares_empty⟩
    | cons other directives =>
        rcases Text.exists_first_line
            other.startsWithLetter_render with
          ⟨second, more, hLines, hSecond⟩
        refine ⟨other.render, _, second, rfl, ?_, ?_⟩
        · rw [hLines, List.head?_cons]
        · exact not_declares_of_startsWithLetter hSecond
  rcases hNext with ⟨next, others, second, hCode, hNext, hNone⟩
  rcases Text.exists_first_line
      directive.startsWithLetter_render with
    ⟨first, more, hLines, hFirst⟩
  rw [hCode, List.flatMap_cons, hLines, List.cons_append,
    exists_mem_take_two_iff
      (not_declares_of_startsWithLetter hFirst)]
  cases more with
  | nil =>
      rw [List.nil_append, head?_flatMap_writtenLines, hNext]
      simp [hNone]
  | cons line more => simp

/- A statement of the routine does not declare. -/
theorem not_exists_declares_statement
    {indent : String}
    (hIndent : Code.IsRoom indent)
    (code : String)
    (hPlain : Lexis.isPlainText code)
    (hStart : Text.startsWithLetter code) :
    ¬ ∃ line,
      (Text.writtenLines (indent ++ code)).head? = some line ∧
        Encoding.Declares line := by
  have hLegible :=
    (Lexis.isLegibleText_of_isRoom hIndent).append
      (Lexis.isLegibleText_of_isPlainText hPlain)
  rw [writtenLines_of_isLegibleText hLegible]
  simp [not_declares_code hIndent hStart]

/- Where there are none, only the first block can declare. -/
theorem exists_declares_of_no_imports
    (hIndent : Code.IsRoom settings.indent)
    (hEntry : Lexis.IsLegibleText settings.entrypoint)
    (hImports : imports.directives = []) :
    (∃ line ∈
        ((codeLines settings imports body).flatMap
          Text.writtenLines).take 2,
        Encoding.Declares line) ↔
      settings.deviceSetup = false ∧
        ∃ written line,
          body.head? = some written ∧
            (Text.writtenLines
                (bodyLine settings.indent written)).head? =
              some line ∧
            Encoding.Declares line := by
  have hHead :
      Lexis.IsLegibleText ("def " ++ settings.entrypoint ++ "():") :=
    ((Lexis.isLegibleText_literal rfl).append hEntry).append
      (Lexis.isLegibleText_literal rfl)
  have hHeadStart :
      Text.startsWithLetter
        ("def " ++ settings.entrypoint ++ "():") :=
    Text.startsWithLetter_append
      (Text.startsWithLetter_append rfl _) _
  unfold codeLines importLines routineLines deviceLines
  rw [ImportBlock.isEmpty_eq, hImports]
  simp only [List.isEmpty_nil, if_true, List.nil_append,
    List.append_assoc, List.cons_append]
  rw [List.flatMap_cons, writtenLines_of_isLegibleText hHead,
    List.singleton_append,
    exists_mem_take_two_iff
      (not_declares_of_startsWithLetter hHeadStart)]
  cases settings.deviceSetup with
  | true =>
      have hNone :=
        not_exists_declares_statement hIndent deviceSetup rfl rfl
      simp only [if_true, List.cons_append]
      rw [head?_flatMap_writtenLines]
      simp [hNone]
  | false =>
      simp only [Bool.false_eq_true, if_false, List.nil_append,
        true_and]
      cases body with
      | nil =>
          have hNone :=
            not_exists_declares_statement hIndent
              completionMessage rfl rfl
          rw [List.map_nil, List.nil_append,
            head?_flatMap_writtenLines]
          simp [hNone]
      | cons written body =>
          rw [List.map_cons, List.cons_append,
            head?_flatMap_writtenLines]
          simp

/-
  One of the first two lines of a script declares an encoding
  if the declaration came there in one of these ways.
-/
theorem declares_iff_setsEncoding
    (hIndent : Code.IsRoom settings.indent)
    (hEntry : Lexis.IsLegibleText settings.entrypoint) :
    (∃ line ∈
        (Text.lines
          (Text.unlines
            (lines settings remarks imports body))).take 2,
        Encoding.Declares line) ↔
      SetsEncoding settings remarks imports body := by
  rw [lines_unlines_lines]
  by_cases hRemarks : remarks = []
  · subst hRemarks
    have hHeader : headerLines [] = [] := rfl
    rw [hHeader, List.nil_append]
    cases hImports : imports.directives with
    | nil =>
        rw [exists_declares_of_no_imports hIndent hEntry hImports]
        constructor
        · rintro ⟨hDevice, written, line, hFirst, hLine,
            hDeclares⟩
          exact .block written line rfl hImports hDevice hFirst
            hLine hDeclares
        · intro hSets
          cases hSets with
          | remark _ hLine => cases hLine
          | request _ _ _ hFirst =>
              rw [hImports] at hFirst
              cases hFirst
          | block written line _ _ hDevice hFirst hLine hDeclares =>
              exact ⟨hDevice, written, line, hFirst, hLine,
                hDeclares⟩
    | cons directive directives =>
        rw [exists_declares_of_imports hImports]
        constructor
        · rintro ⟨line, hLine, hDeclares⟩
          refine .request directive line rfl ?_ hLine hDeclares
          rw [hImports, List.head?_cons]
        · intro hSets
          cases hSets with
          | remark _ hLine => cases hLine
          | request other line _ hFirst hLine hDeclares =>
              rw [hImports] at hFirst
              cases hFirst
              exact ⟨line, hLine, hDeclares⟩
          | block _ _ _ hNone =>
              rw [hImports] at hNone
              cases hNone
  · rw [exists_declares_behind_remarks hRemarks,
      exists_declares_comment_iff]
    constructor
    · rintro ⟨line, hLine, hVisible, hNamed⟩
      exact .remark line hLine hVisible hNamed
    · intro hSets
      cases hSets with
      | remark line hLine hVisible hNamed =>
          exact ⟨line, hLine, hVisible, hNamed⟩
      | request _ _ hNone => exact absurd hNone hRemarks
      | block _ _ hNone => exact absurd hNone hRemarks

end Layout

/- The same for a script, with the blocks it is made of. -/
theorem Script.IsMadeOf.declaresEncoding_iff
    {settings : Settings}
    {registry : Registry}
    {description : Description}
    {graph : Graph}
    {blocks : List Block}
    {script : Script}
    (hMade :
      script.IsMadeOf settings registry description graph blocks)
    (hCheck : settings.check.outcome = .ok ()) :
    script.DeclaresEncoding ↔
      Layout.SetsEncoding settings description.remarks
        script.imports
        (blocks.flatMap fun block => block.generated.lines) := by
  rcases Settings.check_eq_ok_iff.mp hCheck with
    ⟨hIndent, hEntry⟩
  unfold DeclaresEncoding
  rw [hMade.text_eq]
  exact Layout.declares_iff_setsEncoding
    (Settings.isRoom hIndent)
    (isLegible_of_isName (Bool.and_eq_true_iff.mp hEntry).1)

namespace Compiler

/-
  One of the first two lines of a script declares an encoding
  exactly if one of the first two lines of the remarks names
  one, or if there are no remarks and either the first import
  has a break with a declaration behind it, or the first block
  stands right below the head of the routine and begins with
  one. So whoever writes the remarks chooses the encoding.
-/
theorem declares_encoding_iff
    (compiler : Compiler)
    (description : Description)
    (script : Script)
    (hCompile :
      (compiler.compile description).outcome = .ok script) :
    ∃ graph blocks,
      script.IsMadeOf compiler.settings compiler.registry
        description graph blocks ∧
      (script.DeclaresEncoding ↔
        Layout.SetsEncoding compiler.settings
          description.remarks script.imports
          (blocks.flatMap fun block =>
            block.generated.lines)) := by
  rcases exists_isMadeOf hCompile with ⟨graph, blocks, hMade⟩
  exact ⟨graph, blocks, hMade,
    hMade.declaresEncoding_iff (check_of_compile hCompile)⟩

/- A word before the sign is not enough for a declaration. -/
theorem declares_encoding_of_parted_words :
    let parted := Description.empty.describe "coding : utf-7"
    ∃ script,
      ((ofSettings .standard).compile parted).outcome =
          .ok script ∧
        ¬ script.DeclaresEncoding := by
  intro parted
  rcases exists_compile_remarks parted.remarks with
    ⟨script, hScript⟩
  rcases declares_encoding_iff (ofSettings .standard) parted
      script hScript with
    ⟨graph, blocks, -, hDeclares⟩
  refine ⟨script, hScript, ?_⟩
  rw [hDeclares]
  intro hSets
  cases hSets with
  | remark line hLine hVisible hNamed =>
      have hOnly : line = "coding : utf-7".toList :=
        List.mem_singleton.mp hLine
      subst hOnly
      have hComment :=
        (Layout.declares_commentOf_iff _).mpr ⟨hVisible, hNamed⟩
      exact absurd hComment (by decide)
  | request _ _ hNone => cases hNone
  | block _ _ hNone => cases hNone

/- A remark that has the shape of a declaration is one. -/
theorem declares_encoding_of_remark :
    let coded := Description.empty.describe "coding: utf-7"
    ∃ script,
      ((ofSettings .standard).compile coded).outcome =
          .ok script ∧
        "# coding: utf-7" ∈ (Text.lines script.text).take 2 ∧
        script.DeclaresEncoding := by
  intro coded
  rcases exists_compile_remarks coded.remarks with
    ⟨script, hScript⟩
  have hHeader :
      (Text.lines script.text).takeWhile Layout.isComment =
        ["# coding: utf-7"] :=
    (hasHeader_of_compile hScript).comments_eq
  have hLines :
      (Text.lines script.text).takeWhile Layout.isComment
          ++ (Text.lines script.text).dropWhile
            Layout.isComment =
        Text.lines script.text :=
    List.takeWhile_append_dropWhile
  have hFirst :
      "# coding: utf-7" ∈ (Text.lines script.text).take 2 := by
    rw [← hLines, hHeader]
    exact List.mem_cons_self
  exact ⟨script, hScript, hFirst, _, hFirst, by decide⟩

end Compiler

end PipelineScript
