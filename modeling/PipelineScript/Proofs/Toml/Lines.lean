import PipelineScript.Proofs.Text.Lines
import PipelineScript.Proofs.Toml.Keys
import PipelineScript.Toml.Outline

/-
  Documents that were written line by line are read back from
  the lines of their outlines.

  Key definitions include:
    * `Toml.Outline.document`
    * `Toml.Header.IsWritable`

  Key theorems include:
    * `Toml.value_shown`
    * `Toml.assignment_line`
    * `Toml.header_line`
    * `Toml.parse_unlines`
-/

namespace PipelineScript

namespace Toml

open Reader

variable {cs rest : List Char} {c : Char}

------------------------------------------------------------
-- Outlines as Documents
------------------------------------------------------------

/- What an entry assigns. -/
def Keyed.assignment (entry : Keyed) : Assignment where
  path := [entry.key]
  value := entry.content.value

/- The section that a part is. -/
def Part.toSection (part : Part) : Section where
  header := part.header
  assignments := part.entries.map Keyed.assignment

/- The document of an outline. -/
def Outline.document (outline : Outline) : Document where
  assignments := outline.entries.map Keyed.assignment
  sections := outline.parts.map Part.toSection

------------------------------------------------------------
-- Values
------------------------------------------------------------

/- What begins with no quote is no text. -/
theorem quotedText_of_other
    (hDouble : c ≠ '"')
    (hSingle : c ≠ '\x27')
    (rest : List Char) :
    quotedText.run (c :: rest) = none :=
  run_map_of_none
    ((run_orElse_of_none (inQuotes_other hDouble rest)).trans
      (inQuotes_other hSingle rest))

/- No bracket begins a scalar. -/
theorem scalar_bracket
    (hBracket : c = '[' ∨ c = ']')
    (rest : List Char) :
    scalar.run (c :: rest) = none := by
  have hText : quotedText.run (c :: rest) = none := by
    apply quotedText_of_other
    · rcases hBracket with rfl | rfl <;> decide
    · rcases hBracket with rfl | rfl <;> decide
  rw [scalar, run_orElse_of_none (run_map_of_none hText)]
  rcases hBracket with rfl | rfl
  · rfl
  · rfl

/- Nor does a closing bracket begin a value. -/
theorem valueWithin_closing
    (depth : Nat)
    (rest : List Char) :
    (valueWithin depth).run (']' :: rest) = none := by
  have hScalar : scalar.run (']' :: rest) = none :=
    scalar_bracket (Or.inr rfl) rest
  cases depth with
  | zero => exact hScalar
  | succ depth =>
      rw [valueWithin, run_orElse_of_none hScalar]
      rfl

/- There is no gap in front of a closing bracket. -/
theorem breaks_skip_closing (rest : List Char) :
    breaks.skip (']' :: rest) = ']' :: rest := by
  change skipBreaks _ = _
  rw [skipBreaks, if_neg (by decide)]
  rfl

/- Nothing is read between brackets with nothing inside. -/
theorem enclosed_nothing
    {α : Type}
    {reader : Reader α}
    (hNone : reader.run (']' :: rest) = none) :
    (enclosed '[' ']' true breaks reader).run
        ('[' :: ']' :: rest) =
      some ([], rest) := by
  simp [enclosed, run_exact, separated, hNone,
    breaks_skip_closing]

/- An array without items is read back. -/
theorem value_emptyArray (rest : List Char) :
    value.run ('[' :: ']' :: rest) = some (.array [], rest) := by
  have hItem :
      (((valueWithin 78).afterGap breaks).beforeGap
        breaks).run (']' :: rest) = none := by
    simp [afterGap, beforeGap, breaks_skip_closing,
      valueWithin_closing]
  have hScalar : scalar.run ('[' :: ']' :: rest) = none :=
    scalar_bracket (Or.inl rfl) (']' :: rest)
  refine (run_orElse_of_none hScalar).trans ?_
  exact run_orElse_of_some (run_map (enclosed_nothing hItem))

/- A truth value is read back. -/
theorem value_boolean
    (flag : Bool)
    (rest : List Char) :
    value.run ((writtenBoolean flag).toList ++ rest) =
      some (.boolean flag, rest) := by
  apply run_orElse_of_some
  cases flag with
  | true =>
      have hText :=
        quotedText_of_other (show 't' ≠ '"' by decide)
          (by decide) ('r' :: 'u' :: 'e' :: rest)
      exact (run_orElse_of_none (run_map_of_none hText)).trans
        rfl
  | false =>
      have hText :=
        quotedText_of_other (show 'f' ≠ '"' by decide)
          (by decide) ('a' :: 'l' :: 's' :: 'e' :: rest)
      exact (run_orElse_of_none (run_map_of_none hText)).trans
        rfl

/- What is shown of a content is read back. -/
theorem value_shown
    (content : Content)
    (rest : List Char) :
    value.run (content.shown.toList ++ '\n' :: rest) =
      some (content.value, '\n' :: rest) := by
  cases content with
  | text shown =>
      have hRead := quotedText_quotedAs shown.toList rest
      rw [String.ofList_toList] at hRead
      rw [Content.shown, writtenText, String.toList_ofList]
      exact run_orElse_of_some
        (run_orElse_of_some (run_map hRead))
  | boolean flag => exact value_boolean flag _
  | emptyArray => exact value_emptyArray _

/- What is shown of a content stands behind a space. -/
theorem spaces_skip_shown
    (content : Content)
    (rest : List Char) :
    spaces.skip (' ' :: (content.shown.toList ++ rest)) =
      content.shown.toList ++ rest := by
  change spaces.skip (content.shown.toList ++ rest) = _
  cases content with
  | text shown =>
      rw [Content.shown, writtenText, String.toList_ofList]
      cases quotingOf shown.toList with
      | basic => exact spaces_skip_cons (by decide) _
      | literal => exact spaces_skip_cons (by decide) _
      | longBasic => exact spaces_skip_cons (by decide) _
      | longLiteral => exact spaces_skip_cons (by decide) _
  | boolean flag =>
      cases flag with
      | true => exact spaces_skip_cons (by decide) _
      | false => exact spaces_skip_cons (by decide) _
  | emptyArray => exact spaces_skip_cons (by decide) _

------------------------------------------------------------
-- Lines
------------------------------------------------------------

/- The line of an entry begins with a key. -/
theorem Keyed.exists_line_cons (entry : Keyed) :
    ∃ c tail, entry.line.toList = c :: tail ∧ StartsKey c := by
  rcases exists_writtenKey_cons entry.key with
    ⟨c, tail, hText, hStarts⟩
  refine ⟨c, tail ++ (" = " ++ entry.content.shown).toList,
    ?_, hStarts⟩
  rw [line, assignmentLine, String.append_assoc,
    String.toList_append, hText, List.cons_append]

/- An assignment is read back from its line. -/
theorem assignment_line
    (entry : Keyed)
    (rest : List Char) :
    assignment.run (entry.line.toList ++ '\n' :: rest) =
      some (entry.assignment, '\n' :: rest) := by
  have hValue :=
    run_afterGap
      (spaces_skip_shown entry.content ('\n' :: rest))
      (value_shown entry.content rest)
  have hPath :
      keyPath.run
          ((writtenPath [entry.key]).toList
            ++ ' ' :: '=' :: ' '
              :: (entry.content.shown.toList
                ++ '\n' :: rest)) =
        some ([entry.key], '=' :: ' '
          :: (entry.content.shown.toList ++ '\n' :: rest)) :=
    keyPath_writtenPath (List.cons_ne_nil _ _)
      (show 1 < levelLimit by decide) (endsKey_cons (by decide))
      rfl (by simp)
  have hLine :
      entry.line.toList ++ '\n' :: rest =
        (writtenPath [entry.key]).toList
          ++ ' ' :: '=' :: ' '
            :: (entry.content.shown.toList ++ '\n' :: rest) := by
    simp [Keyed.line, assignmentLine, writtenPath]
  rw [hLine]
  exact run_map
    (run_andThen (run_before hPath (run_exact _ _)) hValue)

/- A header has some keys, and not too many. -/
def Header.IsWritable (header : Header) : Prop :=
  header.path ≠ [] ∧ header.path.length < levelLimit

variable {path : List String}

/- A path is read back in front of a bracket. -/
theorem keyPath_bracket
    (hSome : path ≠ [])
    (hLevels : path.length < levelLimit)
    (rest : List Char) :
    keyPath.run ((writtenPath path).toList ++ ']' :: rest) =
      some (path, ']' :: rest) :=
  keyPath_writtenPath hSome hLevels (endsKey_cons (by decide))
    (spaces_skip_cons (by decide) rest) (by simp)

/- There is no second bracket in front of a path. -/
theorem bracket_writtenPath
    (hSome : path ≠ [])
    (rest : List Char) :
    (exact '[').run ((writtenPath path).toList ++ rest) =
      none := by
  rcases List.exists_cons_of_ne_nil hSome with
    ⟨first, others, rfl⟩
  rcases exists_writtenKey_cons first with
    ⟨c, tail, hText, hStarts⟩
  rw [toList_writtenPath, hText]
  exact run_exact_of_ne
    (hStarts.ne (by decide) (by decide)) _

/- A header is read back from its line. -/
theorem header_line
    {part : Part}
    (hHeader : part.header.IsWritable)
    (rest : List Char) :
    header.run (part.headerLine.toList ++ '\n' :: rest) =
      some (part.header, '\n' :: rest) := by
  rcases part with ⟨⟨opensItem, path⟩, entries⟩
  rcases hHeader with ⟨hSome, hLevels⟩
  have hPath := keyPath_bracket hSome hLevels
  cases opensItem with
  | true =>
      have hLine :
          (Part.headerLine ⟨⟨true, path⟩, entries⟩).toList
              ++ '\n' :: rest =
            '[' :: '[' :: ((writtenPath path).toList
              ++ ']' :: ']' :: '\n' :: rest) := by
        simp [Part.headerLine, itemLine]
      rw [hLine]
      exact run_afterGap (spaces_skip_cons (by decide) _)
        (run_orElse_of_some (run_map
          (run_before
            (run_before
              (run_behind (run_exact _ _)
                (run_behind (run_exact _ _) (hPath _)))
              (run_exact _ _))
            (run_exact _ _))))
  | false =>
      have hLine :
          (Part.headerLine ⟨⟨false, path⟩, entries⟩).toList
              ++ '\n' :: rest =
            '[' :: ((writtenPath path).toList
              ++ ']' :: '\n' :: rest) := by
        simp [Part.headerLine, tableLine]
      rw [hLine]
      apply run_afterGap (spaces_skip_cons (by decide) _)
      rw [run_orElse_of_none]
      · exact run_map
          (run_before (run_behind (run_exact _ _) (hPath _))
            (run_exact _ _))
      · exact run_map_of_none (run_before_of_none
          (run_before_of_none
            (run_behind_of_next_none (run_exact _ _)
              (run_behind_of_none
                (bracket_writtenPath hSome _)))))

------------------------------------------------------------
-- Documents
------------------------------------------------------------

/- An empty line assigns nothing. -/
theorem readAssignments_break (rest : List Char) :
    readAssignments ('\n' :: rest) = readAssignments rest := by
  rw [readAssignments]
  split
  · next after hEnd =>
      rw [lineEnd_break, Option.some.injEq] at hEnd
      subst hEnd
      rfl
  · next hNone =>
      rw [lineEnd_break] at hNone
      simp at hNone

/- Assignments end at a header. -/
theorem readAssignments_bracket (rest : List Char) :
    readAssignments ('[' :: rest) = some ([], '[' :: rest) := by
  have hStart : lineEnd? ('[' :: rest) = none :=
    lineEnd_of_start (by decide) (by decide) (fun _ => rfl) rest
  rw [readAssignments]
  split
  · next after hEnd => simp [hStart] at hEnd
  · rw [if_pos]
    rw [spaces_skip_cons (by decide)]
    rfl

/- The entry of a line is read in front of the next lines. -/
theorem readAssignments_line
    {assignments : List Assignment}
    (entry : Keyed)
    (hRest :
      readAssignments cs = some (assignments, rest)) :
    readAssignments (entry.line.toList ++ '\n' :: cs) =
      some (entry.assignment :: assignments, rest) := by
  have hRead := assignment_line entry cs
  rcases entry.exists_line_cons with ⟨c, tail, hText, hStarts⟩
  rw [hText, List.cons_append] at hRead ⊢
  rw [readAssignments]
  split
  · next after hEnd => simp [hStarts.lineEnd_eq] at hEnd
  · have hHead :
        (spaces.skip (c :: (tail ++ '\n' :: cs))).head? ≠
          some '[' := by
      rw [spaces_skip_cons hStarts.isSpace_eq]
      simpa using hStarts.ne (by decide) (by decide)
    rw [if_neg (by simpa using hHead)]
    split
    · next hNone => simp [hRead] at hNone
    · next first middle hFirst =>
        rw [hRead, Option.some.injEq, Prod.mk.injEq] at hFirst
        rcases hFirst with ⟨rfl, rfl⟩
        split
        · next hNone => simp [lineEnd_break] at hNone
        · next after hEnd =>
            rw [lineEnd_break, Option.some.injEq] at hEnd
            subst hEnd
            rw [hRest]
            rfl

/- All entries are read in front of what ends them. -/
theorem readAssignments_lines
    {tail : List Char}
    (entries : List Keyed)
    (hTail : readAssignments tail = some ([], rest)) :
    readAssignments
        ((Text.unlines (entries.map Keyed.line)).toList
          ++ tail) =
      some (entries.map Keyed.assignment, rest) := by
  induction entries with
  | nil => simpa [Text.unlines] using hTail
  | cons entry entries ih =>
      rw [List.map_cons, Text.toList_unlines_cons,
        List.append_assoc, List.cons_append, List.map_cons]
      exact readAssignments_line entry ih

/- A header begins with its bracket. -/
theorem Part.exists_headerLine_cons (part : Part) :
    ∃ tail, part.headerLine.toList = '[' :: tail := by
  unfold headerLine
  split
  · exact ⟨_, by rw [itemLine, String.toList_append,
      String.toList_append]; rfl⟩
  · exact ⟨_, by rw [tableLine, String.toList_append,
      String.toList_append]; rfl⟩

/-
  The section of a part is read behind its first, empty line,
  if what ends it and the sections behind it are read.
-/
theorem readSections_part
    {part : Part}
    {sections : List Section}
    {tail after : List Char}
    (hHeader : part.header.IsWritable)
    (hTail : readAssignments tail = some ([], after))
    (hAfter : readSections after = some sections) :
    readSections
        (part.headerLine.toList
          ++ '\n' :: ((Text.unlines
            (part.entries.map Keyed.line)).toList ++ tail)) =
      some (part.toSection :: sections) := by
  have hLine :=
    header_line hHeader
      ((Text.unlines (part.entries.map Keyed.line)).toList
        ++ tail)
  have hEntries := readAssignments_lines part.entries hTail
  rcases part.exists_headerLine_cons with ⟨others, hText⟩
  rw [hText, List.cons_append] at hLine ⊢
  rw [readSections]
  split
  · next hNone => simp [hLine] at hNone
  · next found middle hFound =>
      rw [hLine, Option.some.injEq, Prod.mk.injEq] at hFound
      rcases hFound with ⟨rfl, rfl⟩
      split
      · next hNone => simp [lineEnd_break] at hNone
      · next behind hEnd =>
          rw [lineEnd_break, Option.some.injEq] at hEnd
          subst hEnd
          split
          · next hNone => simp [hEntries] at hNone
          · next assignments last hLast =>
              rw [hEntries, Option.some.injEq,
                Prod.mk.injEq] at hLast
              rcases hLast with ⟨rfl, rfl⟩
              rw [hAfter]
              rfl

/-
  The parts of an outline are read as its sections. The empty
  line in front of them belongs to what stands before.
-/
theorem readSections_parts
    {parts : List Part}
    (hHeaders : ∀ part ∈ parts, part.header.IsWritable) :
    ∃ tail,
      readAssignments
          (Text.unlines (parts.flatMap Part.lines)).toList =
          some ([], tail) ∧
        readSections tail = some (parts.map Part.toSection) := by
  induction parts with
  | nil =>
      refine ⟨[], ?_, ?_⟩
      · simp [Text.unlines, readAssignments]
      · simp [readSections]
  | cons part parts ih =>
      rw [List.forall_mem_cons] at hHeaders
      rcases ih hHeaders.2 with ⟨after, hTail, hAfter⟩
      have hPart := readSections_part hHeaders.1 hTail hAfter
      rcases part.exists_headerLine_cons with ⟨others, hText⟩
      refine ⟨_, ?_, hPart⟩
      rw [List.flatMap_cons, Text.toList_unlines_append,
        Part.lines, Text.toList_unlines_cons,
        Text.toList_unlines_cons, List.append_assoc,
        List.cons_append]
      change readAssignments ('\n' :: _) = _
      rw [readAssignments_break, hText, List.append_assoc,
        List.cons_append, List.cons_append, List.cons_append]
      exact readAssignments_bracket _

/- No outline begins with a mark of the encoding. -/
theorem dropEncodingMark_lines (outline : Outline) :
    dropEncodingMark (Text.unlines outline.lines).toList =
      (Text.unlines outline.lines).toList := by
  have hFirst :
      (Text.unlines outline.lines).toList.head? ≠
        some '\uFEFF' := by
    rcases outline with ⟨entries, parts⟩
    cases entries with
    | cons entry others =>
        rcases entry.exists_line_cons with
          ⟨c, rest, hText, hStarts⟩
        rw [Outline.lines, List.map_cons, List.cons_append,
          Text.toList_unlines_cons, hText, List.cons_append]
        simpa using hStarts.ne (by decide) (by decide)
    | nil =>
        cases parts with
        | nil => simp [Outline.lines, Text.unlines]
        | cons part others =>
            rw [Outline.lines, List.map_nil, List.nil_append,
              List.flatMap_cons, Part.lines, List.cons_append,
              Text.toList_unlines_cons]
            simp
  unfold dropEncodingMark
  split
  · next rest hSame =>
      rw [hSame] at hFirst
      exact absurd rfl hFirst
  · rfl

/- An outline is read back from its lines. -/
theorem parse_unlines
    {outline : Outline}
    (hHeaders :
      ∀ part ∈ outline.parts, part.header.IsWritable) :
    Document.parse? (Text.unlines outline.lines) =
      some outline.document := by
  rcases readSections_parts hHeaders with
    ⟨tail, hTail, hSections⟩
  have hRead := readAssignments_lines outline.entries hTail
  rw [← Text.toList_unlines_append] at hRead
  rw [Document.parse?, dropEncodingMark_lines, Outline.lines,
    hRead]
  dsimp only
  rw [hSections]
  rfl

end Toml

end PipelineScript
