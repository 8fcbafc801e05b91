import PipelineScript.Proofs.Script.Layout

/-
  The remarks at the top of a script.

  The header of a script has a comment for every line of every
  remark, and is parted from what follows by one empty line.
  A remark without characters has no lines, and nothing is
  left of it.

  Key definitions include:
    * `Layout.remarkLines`
    * `Layout.keptLines`
    * `Script.HasHeader`

  Key theorems include:
    * `Layout.commentLines_eq`
    * `Layout.exists_codeLine`
    * `Layout.lines_unlines_lines`
    * `Compiler.header_keeps_remarks_iff`
-/

namespace PipelineScript

------------------------------------------------------------
-- First Letters
------------------------------------------------------------

namespace Text

/- A letter ends no line and begins no comment. -/
theorem isBreak_of_isAlpha
    {c : Char}
    (hAlpha : c.isAlpha) :
    isBreak c = false ∧ c ≠ '#' := by
  rw [isBreak_eq_false_iff]
  refine ⟨⟨?_, ?_⟩, ?_⟩ <;> rintro rfl <;> cases hAlpha

/- A text begins with a letter. -/
def startsWithLetter (text : String) : Bool :=
  text.toList.head?.any Char.isAlpha

/- It does if there is a letter and the rest behind it. -/
theorem startsWithLetter_iff {text : String} :
    startsWithLetter text ↔
      ∃ c rest, text.toList = c :: rest ∧ c.isAlpha := by
  unfold startsWithLetter
  cases text.toList with
  | nil => simp
  | cons c rest => simp

/- More text behind does not change the letter. -/
theorem startsWithLetter_append
    {first : String}
    (hFirst : startsWithLetter first)
    (second : String) :
    startsWithLetter (first ++ second) := by
  rw [startsWithLetter_iff] at hFirst ⊢
  rcases hFirst with ⟨c, rest, hFirst, hAlpha⟩
  refine ⟨c, rest ++ second.toList, ?_, hAlpha⟩
  rw [String.toList_append, hFirst, List.cons_append]

/- The first of several lines begins with the same letter. -/
theorem exists_first_line
    {written : String}
    (hWritten : startsWithLetter written) :
    ∃ first others,
      writtenLines written = first :: others ∧
        startsWithLetter first := by
  rw [startsWithLetter_iff] at hWritten
  rcases hWritten with ⟨c, rest, hWritten, hAlpha⟩
  rw [writtenLines, lines_eq, String.toList_append, hWritten,
    List.cons_append,
    splitLines_cons (isBreak_of_isAlpha hAlpha).1,
    List.map_cons]
  refine ⟨_, _, rfl, ?_⟩
  rw [startsWithLetter_iff]
  exact ⟨c, _, String.toList_ofList, hAlpha⟩

end Text

/- A request is rendered as a statement, with its word first. -/
theorem Directive.startsWithLetter_render
    (directive : Directive) :
    Text.startsWithLetter directive.render := by
  have hWord {word : String}
      (hWord : Text.startsWithLetter word) (rest : String) :=
    Text.startsWithLetter_append hWord rest
  unfold render
  split
  · exact hWord (hWord (hWord (hWord (hWord rfl _) _) _) _) _
  · exact hWord (hWord (hWord rfl _) _) _
  · exact hWord (hWord (hWord rfl _) _) _
  · exact hWord rfl _

------------------------------------------------------------
-- Remarks
------------------------------------------------------------

namespace Layout

/-
  The comment for a line: a mark alone if nothing of the line
  can be seen, and else a mark and the line, with all control
  characters but tabs as escapes.
-/
def commentOf (line : List Char) : String :=
  if line.all Text.isBlank then
    "#"
  else
    "# " ++ String.ofList (line.flatMap Literal.commentChar)

/- The lines of all remarks, one after the other. -/
def remarkTexts (remarks : List String) : List (List Char) :=
  remarks.flatMap fun remark => Text.splitLines remark.toList

/- A comment for each line of a remark. -/
def remarkLines (remark : String) : List String :=
  (Text.splitLines remark.toList).map commentOf

/-
  The same, where a remark without characters counts as a line
  without characters.
-/
def keptLines (remark : String) : List String :=
  if remark.isEmpty then
    [commentOf []]
  else
    remarkLines remark

/- The comments are those of the remarks, one after another. -/
theorem commentLines_eq (remarks : List String) :
    commentLines remarks = remarks.flatMap remarkLines := by
  apply List.flatMap_congr
  intro remark _
  rw [Text.lines_eq, List.map_map]
  apply List.map_congr_left
  intro line _
  simp [commentLine, commentOf, Text.isBlankText,
    Literal.comment]

/- They are the comments for all lines of remarks. -/
theorem commentLines_eq_map (remarks : List String) :
    commentLines remarks =
      (remarkTexts remarks).map commentOf := by
  rw [commentLines_eq, remarkTexts, List.map_flatMap]
  rfl

/- Only a remark without characters has no comments. -/
theorem remarkLines_eq_nil_iff {remark : String} :
    remarkLines remark = [] ↔ remark = "" := by
  unfold remarkLines
  rw [List.map_eq_nil_iff]
  constructor
  · intro hNone
    by_contra hSome
    apply Text.splitLines_ne_nil _ hNone
    simpa using hSome
  · rintro rfl
    rfl

/- Every remark without characters makes for one line more. -/
theorem length_flatMap_keptLines (remarks : List String) :
    (remarks.flatMap keptLines).length =
      (remarks.flatMap remarkLines).length
        + remarks.count "" := by
  induction remarks with
  | nil => rfl
  | cons remark remarks ih =>
      rw [List.flatMap_cons, List.flatMap_cons,
        List.length_append, List.length_append, ih]
      by_cases hEmpty : remark = ""
      · have hNone := remarkLines_eq_nil_iff.mpr hEmpty
        subst hEmpty
        rw [List.count_cons_self, hNone]
        simp [keptLines]
        omega
      · have hKept : keptLines remark = remarkLines remark := by
          simp [keptLines, hEmpty]
        rw [List.count_cons_of_ne hEmpty, hKept]
        omega

/- A line that is a comment. -/
def isComment (line : String) : Bool :=
  line.toList.head? == some '#'

------------------------------------------------------------
-- Headers
------------------------------------------------------------

variable {settings : Settings} {imports : ImportBlock}
variable {remarks body : List String}

/- What comes behind the header of a script. -/
def codeLines
    (settings : Settings)
    (imports : ImportBlock)
    (body : List String) : List String :=
  importLines imports ++ routineLines settings body
    ++ callLines settings

/- Code begins with an import or with the routine. -/
theorem exists_codeLine
    (settings : Settings)
    (imports : ImportBlock)
    (body : List String) :
    ∃ first others,
      (codeLines settings imports body).flatMap
          Text.writtenLines =
        first :: others ∧
        Text.startsWithLetter first := by
  have hWritten :
      ∃ written others,
        codeLines settings imports body = written :: others ∧
          Text.startsWithLetter written := by
    unfold codeLines importLines ImportBlock.lines
    rw [ImportBlock.isEmpty_eq]
    cases imports.directives with
    | nil =>
        refine ⟨_, _, rfl, ?_⟩
        exact Text.startsWithLetter_append
          (Text.startsWithLetter_append rfl _) _
    | cons directive directives =>
        refine ⟨_, _, rfl, ?_⟩
        exact directive.startsWithLetter_render
  rcases hWritten with ⟨written, code, hCode, hWritten⟩
  rcases Text.exists_first_line hWritten with
    ⟨first, others, hFirst, hStart⟩
  rw [hCode, List.flatMap_cons, hFirst, List.cons_append]
  exact ⟨_, _, rfl, hStart⟩

/- A line that begins with a letter is no comment. -/
theorem isComment_of_startsWithLetter
    {line : String}
    (hLine : Text.startsWithLetter line) :
    isComment line = false ∧ line ≠ "" := by
  rw [Text.startsWithLetter_iff] at hLine
  rcases hLine with ⟨c, rest, hLine, hAlpha⟩
  constructor
  · simpa [isComment, hLine] using
      (Text.isBreak_of_isAlpha hAlpha).2
  · rintro rfl
    cases hLine

/- A header is comments, and an empty line behind them. -/
theorem headerLines_eq (remarks : List String) :
    headerLines remarks =
      commentLines remarks ++
        if remarks = [] then [] else [""] := by
  cases remarks with
  | nil => rfl
  | cons remark remarks => rfl

/- What is legible is split into the line that was written. -/
theorem writtenLines_of_isLegibleText
    {line : String}
    (hLine : Lexis.IsLegibleText line) :
    Text.writtenLines line = [line] := by
  apply Text.writtenLines_of_plain
  intro c hMem
  have hLegible := hLine c hMem
  rw [Text.isBreak_eq_false_iff]
  refine ⟨?_, ?_⟩ <;> rintro rfl <;> cases hLegible

/-
  A script is split into its header as it was written, and
  into the lines of all code behind it.
-/
theorem lines_unlines_lines :
    Text.lines
        (Text.unlines (lines settings remarks imports body)) =
      headerLines remarks ++
        (codeLines settings imports body).flatMap
          Text.writtenLines := by
  have hHeader :
      (headerLines remarks).flatMap Text.writtenLines =
        headerLines remarks := by
    rw [List.flatMap_congr fun line hLine =>
      writtenLines_of_isLegibleText
        (isLegibleText_header remarks line hLine)]
    exact List.flatMap_singleton' _
  rw [Text.lines_unlines]
  unfold lines
  rw [List.append_assoc, List.append_assoc, List.flatMap_append,
    hHeader, ← List.append_assoc (importLines imports)]
  rfl

end Layout

/-
  The comments at the top of a script are the given ones, and
  one empty line is behind them if there are remarks.
-/
structure Script.HasHeader
    (script : Script)
    (remarks comments : List String) : Prop where
  comments_eq :
    (Text.lines script.text).takeWhile Layout.isComment =
      comments
  exists_behind :
    ∃ first others,
      (Text.lines script.text).dropWhile Layout.isComment =
          (if remarks = [] then [] else [""])
            ++ first :: others ∧
        first ≠ ""

namespace Compiler

variable {compiler : Compiler}
variable {description : Description} {script : Script}

/- The header of a script has the lines of its remarks. -/
theorem hasHeader_of_compile
    (hCompile :
      (compiler.compile description).outcome = .ok script) :
    script.HasHeader description.remarks
      (description.remarks.flatMap Layout.remarkLines) := by
  rcases exists_isMadeOf hCompile with ⟨graph, blocks, hMade⟩
  rcases Layout.exists_codeLine compiler.settings
      script.imports
      (blocks.flatMap fun block => block.generated.lines) with
    ⟨first, others, hCode, hStart⟩
  rcases Layout.isComment_of_startsWithLetter hStart with
    ⟨hFirstCode, hFirstSome⟩
  have hComments :
      ∀ line ∈ Layout.commentLines description.remarks,
        Layout.isComment line := by
    intro line hLine
    have hMark := (Layout.commentLines_spec _ line hLine).1
    simp [Layout.isComment, hMark]
  have hLines :
      Text.lines script.text =
        Layout.commentLines description.remarks ++
          ((if description.remarks = [] then [] else [""])
            ++ first :: others) := by
    rw [hMade.text_eq, Layout.lines_unlines_lines, hCode,
      Layout.headerLines_eq, List.append_assoc]
  rw [← Layout.commentLines_eq]
  constructor
  · rw [hLines, List.takeWhile_append_of_pos hComments]
    split
    · simp [hFirstCode]
    · simp [Layout.isComment]
  · refine ⟨first, others, ?_, hFirstSome⟩
    rw [hLines, List.dropWhile_append_of_pos hComments]
    split
    · simp [hFirstCode]
    · simp [Layout.isComment]

/- Any remarks become a script, where there are no nodes. -/
theorem exists_compile_remarks (remarks : List String) :
    ∃ script,
      ((ofSettings .standard).compile
          { Description.empty with remarks := remarks }).outcome =
        .ok script := by
  have hAgree :
      ImportBlock.Agree (Description.empty.requests .standard) :=
    ⟨by decide, by decide⟩
  apply exists_compile_of_rank fun _ => 0
  · rfl
  · rfl
  · exact List.forall_mem_nil _
  · exact ⟨List.nodup_nil, List.forall_mem_nil _⟩
  · exact hAgree

/-
  The header of a script consists of a comment for every line
  of every remark, in order, and of one empty line behind them
  if there are remarks. Every remark is kept if there are
  characters in each, and only then: where a remark without
  characters counts as a line, the header lacks a comment.
-/
theorem header_keeps_remarks_iff
    (compiler : Compiler)
    (description : Description)
    (script : Script)
    (hCompile :
      (compiler.compile description).outcome = .ok script) :
    script.HasHeader description.remarks
        (description.remarks.flatMap Layout.remarkLines) ∧
      (∀ remark,
        Layout.remarkLines remark = [] ↔ remark = "") ∧
      (script.HasHeader description.remarks
          (description.remarks.flatMap Layout.keptLines) ↔
        "" ∉ description.remarks) := by
  have hHeader := hasHeader_of_compile hCompile
  refine ⟨hHeader, fun _ => Layout.remarkLines_eq_nil_iff, ?_⟩
  constructor
  · intro hKept hEmpty
    have hSame :=
      congrArg List.length
        (hKept.comments_eq.symm.trans hHeader.comments_eq)
    rw [Layout.length_flatMap_keptLines] at hSame
    have hCount := List.count_pos_iff.mpr hEmpty
    omega
  · intro hSome
    have hSame :
        description.remarks.flatMap Layout.keptLines =
          description.remarks.flatMap Layout.remarkLines := by
      apply List.flatMap_congr
      intro remark hRemark
      apply if_neg
      rw [String.isEmpty_iff]
      rintro rfl
      exact hSome hRemark
    rw [hSame]
    exact hHeader

/- Breaks of all kinds, and lines that only make room. -/
theorem header_of_mixed_breaks :
    let mixed :=
      (Description.empty.describe "a\r\r\nb\x0c\r\n").describe
        " \n\x0c"
    ∃ script,
      ((ofSettings .standard).compile mixed).outcome =
          .ok script ∧
        script.HasHeader mixed.remarks
          ["# a", "#", "# b\\x0c", "#", "#"] := by
  intro mixed
  rcases exists_compile_remarks mixed.remarks with
    ⟨script, hScript⟩
  rcases header_keeps_remarks_iff (ofSettings .standard) mixed
      script hScript with
    ⟨-, -, hKept⟩
  exact ⟨script, hScript, hKept.mpr (by decide)⟩

/- Nothing is left of a remark without characters. -/
theorem header_of_empty_remark :
    let blank := Description.empty.describe ""
    ∃ script,
      ((ofSettings .standard).compile blank).outcome =
          .ok script ∧
        script.HasHeader blank.remarks [] ∧
        ¬ script.HasHeader blank.remarks ["#"] := by
  intro blank
  rcases exists_compile_remarks blank.remarks with
    ⟨script, hScript⟩
  have hHeader := hasHeader_of_compile hScript
  refine ⟨script, hScript, hHeader, ?_⟩
  intro hKept
  have hSame := hKept.comments_eq.symm.trans hHeader.comments_eq
  exact absurd hSame (by decide)

end Compiler

end PipelineScript
