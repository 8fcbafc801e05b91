import PipelineScript.Text.Lines

/-
  Texts that are made of lines, and taken apart again.

  What takes a text apart does so in several passes. They come
  to the same as one walk over the text that knows all three
  ways to end a line.

  Key definitions include:
    * `Text.splitLines`
    * `Text.writtenLines`

  Key theorems include:
    * `Text.splitOn_unlines`
    * `Text.mem_unlines`
    * `Text.lines_eq`
    * `Text.writtenLines_of_plain`
    * `Text.lines_unlines`
-/

namespace PipelineScript

namespace Text

/- A line comes in front of the other lines. -/
theorem toList_unlines_cons
    (line : String)
    (lines : List String) :
    (unlines (line :: lines)).toList =
      line.toList ++ '\n' :: (unlines lines).toList := by
  simp [unlines]

/- Lines behind other lines are ended where they stand. -/
theorem toList_unlines_append (first second : List String) :
    (unlines (first ++ second)).toList =
      (unlines first).toList ++ (unlines second).toList := by
  induction first with
  | nil => simp [unlines]
  | cons line first ih =>
      rw [List.cons_append, toList_unlines_cons, ih,
        toList_unlines_cons, List.append_assoc,
        List.cons_append]

/- Lines are put together one list after the other. -/
theorem unlines_append (first second : List String) :
    unlines (first ++ second) =
      unlines first ++ unlines second := by
  apply String.toList_injective
  rw [toList_unlines_append, String.toList_append]

/-
  A text whose lines have no line feeds is split into its
  lines, with nothing behind the last of them.
-/
theorem splitOn_unlines
    {lines : List String}
    (hLines : ∀ line ∈ lines, '\n' ∉ line.toList) :
    List.splitOn '\n' (unlines lines).toList =
      lines.map String.toList ++ [[]] := by
  induction lines with
  | nil => rfl
  | cons line lines ih =>
      rw [List.forall_mem_cons] at hLines
      rw [toList_unlines_cons,
        List.splitOn_append_cons_self_of_not_mem hLines.1,
        ih hLines.2]
      rfl

/- The characters of a text are its breaks and its lines. -/
theorem mem_unlines
    {lines : List String}
    {c : Char}
    (hMem : c ∈ (unlines lines).toList) :
    c = '\n' ∨ ∃ line ∈ lines, c ∈ line.toList := by
  induction lines with
  | nil => simp [unlines] at hMem
  | cons line lines ih =>
      rw [toList_unlines_cons, List.mem_append, List.mem_cons] at hMem
      rcases hMem with hLine | hBreak | hRest
      · exact Or.inr ⟨line, List.mem_cons_self, hLine⟩
      · exact Or.inl hBreak
      · rcases ih hRest with hBreak | ⟨other, hOther, hMem⟩
        · exact Or.inl hBreak
        · exact Or.inr
            ⟨other, List.mem_cons_of_mem _ hOther, hMem⟩

------------------------------------------------------------
-- Splitting
------------------------------------------------------------

/-
  The characters between breaks. A break ends a line, and what
  is behind the last break is one more line unless there is
  nothing behind it.
-/
def splitLines : List Char → List (List Char)
  | [] => []
  | '\r' :: '\n' :: rest => [] :: splitLines rest
  | '\r' :: rest => [] :: splitLines rest
  | '\n' :: rest => [] :: splitLines rest
  | c :: rest =>
      (c :: (splitLines rest).headD []) ::
        (splitLines rest).tail

/- A character that ends a line. -/
def isBreak (c : Char) : Bool :=
  c == '\n' || c == '\r'

/- Any other character is neither of the two. -/
theorem isBreak_eq_false_iff {c : Char} :
    isBreak c = false ↔ c ≠ '\n' ∧ c ≠ '\r' := by
  simp [isBreak]

/- Any other character stands in front of the first line. -/
theorem splitLines_cons
    {c : Char}
    (hPlain : isBreak c = false)
    (rest : List Char) :
    splitLines (c :: rest) =
      (c :: (splitLines rest).headD []) ::
        (splitLines rest).tail := by
  rcases isBreak_eq_false_iff.mp hPlain with ⟨hFeed, hReturn⟩
  rw [splitLines]
  · exact fun _ hC _ => hReturn hC
  · exact hReturn
  · exact hFeed

/- There are lines unless there are no characters. -/
theorem splitLines_ne_nil
    {cs : List Char}
    (hSome : cs ≠ []) :
    splitLines cs ≠ [] := by
  fun_cases splitLines cs with
  | case1 => exact fun _ => hSome rfl
  | case2 rest => simp
  | case3 rest hNext => simp
  | case4 rest => simp
  | case5 c rest hBoth hReturn hFeed => simp

/- No line has a break in it. -/
theorem isBreak_of_mem_splitLines
    (cs : List Char) :
    ∀ line ∈ splitLines cs, ∀ c ∈ line, isBreak c = false := by
  fun_induction splitLines cs with
  | case1 => simp
  | case2 rest ih => simpa using ih
  | case3 rest hNext ih => simpa using ih
  | case4 rest ih => simpa using ih
  | case5 c rest hBoth hReturn hFeed ih =>
      have hPlain : isBreak c = false :=
        isBreak_eq_false_iff.mpr ⟨hFeed, hReturn⟩
      cases hLines : splitLines rest with
      | nil => simp [hPlain]
      | cons line lines =>
          rw [hLines, List.forall_mem_cons] at ih
          simpa [hPlain] using ih

/- So does what is no line feed where only they end lines. -/
theorem fedLines_cons
    {c : Char}
    (hFeed : c ≠ '\n')
    (rest : List Char) :
    fedLines (c :: rest) =
      (c :: (fedLines rest).headD []) ::
        (fedLines rest).tail := by
  rw [fedLines]
  · cases fedLines rest <;> rfl
  · exact hFeed

/- Line feeds for all breaks make the same lines. -/
theorem fedLines_unifyBreaks (cs : List Char) :
    fedLines (unifyBreaks cs) = splitLines cs := by
  unfold unifyBreaks
  fun_induction splitLines cs with
  | case1 => rfl
  | case2 rest ih =>
      rw [← ih]
      rfl
  | case3 rest hNext ih =>
      rw [joinBreaks, ← ih]
      · rfl
      · exact fun next _ hRest => hNext next hRest
  | case4 rest ih =>
      rw [joinBreaks, ← ih]
      · rfl
      · exact fun _ hC => absurd hC (by decide)
  | case5 c rest hBoth hReturn hFeed ih =>
      have hChar : breakChar c = c :=
        if_neg (by simpa using hReturn)
      rw [joinBreaks, List.map_cons, hChar, fedLines_cons, ih]
      · exact hFeed
      · exact hBoth

/-
  The lines of a text are what is between its breaks. There is
  no return left to take off a line.
-/
theorem lines_eq (text : String) :
    lines text =
      (splitLines text.toList).map String.ofList := by
  unfold lines
  rw [fedLines_unifyBreaks]
  apply List.map_congr_left
  intro line hLine
  have hNone : line.getLast? ≠ some '\r' := by
    intro hLast
    have hPlain :=
      isBreak_of_mem_splitLines text.toList line hLine '\r'
        (List.mem_of_getLast? hLast)
    cases hPlain
  simp [withoutReturn, hNone]

/- A text behind a line feed has lines of its own. -/
theorem splitLines_append_feed (front rest : List Char) :
    splitLines (front ++ '\n' :: rest) =
      splitLines (front ++ ['\n']) ++ splitLines rest := by
  fun_induction splitLines front with
  | case1 => rfl
  | case2 front ih => exact congrArg ([] :: ·) ih
  | case3 front hNext ih =>
      cases front with
      | nil => rfl
      | cons c front =>
          have hAlone (more : List Char) :
              splitLines ('\r' :: c :: more) =
                [] :: splitLines (c :: more) := by
            rw [splitLines]
            rintro _ ⟨⟩
            exact hNext front rfl
          simp only [List.cons_append] at ih ⊢
          rw [hAlone, hAlone, ih, List.cons_append]
  | case4 front ih => exact congrArg ([] :: ·) ih
  | case5 c front hBoth hReturn hFeed ih =>
      have hPlain : isBreak c = false :=
        isBreak_eq_false_iff.mpr ⟨hFeed, hReturn⟩
      rw [List.cons_append, List.cons_append,
        splitLines_cons hPlain, splitLines_cons hPlain, ih]
      cases hLines : splitLines (front ++ ['\n']) with
      | nil => exact absurd hLines (splitLines_ne_nil (by simp))
      | cons line lines => rfl

/- What a line is split into where it was written. -/
def writtenLines (line : String) : List String :=
  lines (line ++ "\n")

/- There is a line where one was written. -/
theorem writtenLines_ne_nil (line : String) :
    writtenLines line ≠ [] := by
  unfold writtenLines
  rw [lines_eq, Ne, List.map_eq_nil_iff]
  exact splitLines_ne_nil (by simp)

/- It is the line that was written if that has no breaks. -/
theorem writtenLines_of_plain
    {line : String}
    (hPlain : ∀ c ∈ line.toList, isBreak c = false) :
    writtenLines line = [line] := by
  have hOne :
      ∀ cs : List Char,
        (∀ c ∈ cs, isBreak c = false) →
          splitLines (cs ++ "\n".toList) = [cs] := by
    intro cs hCs
    induction cs with
    | nil => rfl
    | cons c cs ih =>
        rw [List.forall_mem_cons] at hCs
        rw [List.cons_append, splitLines_cons hCs.1, ih hCs.2]
        rfl
  unfold writtenLines
  rw [lines_eq, String.toList_append, hOne line.toList hPlain,
    List.map_singleton, String.ofList_toList]

/-
  What a text of written lines is split into, line by line. A
  line that was written with breaks becomes several.
-/
theorem lines_unlines (written : List String) :
    lines (unlines written) = written.flatMap writtenLines := by
  induction written with
  | nil => rfl
  | cons line written ih =>
      unfold writtenLines at ih ⊢
      rw [List.flatMap_cons, ← ih, lines_eq, lines_eq, lines_eq,
        toList_unlines_cons, splitLines_append_feed,
        List.map_append, String.toList_append]
      rfl

end Text

end PipelineScript
