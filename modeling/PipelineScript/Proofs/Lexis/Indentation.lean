import Mathlib.Data.List.Chain
import Mathlib.Data.List.Induction
import PipelineScript.Proofs.Lexis.Statements
import PipelineScript.Text.Blank

/-
  How far the lines of a script stand in, and what that makes
  of them.

  Lines that are blank, comments, or in brackets that an
  earlier line has opened do not count. Of the others, one that
  ends with a colon opens a block, which stands one unit deeper
  and goes on as long as lines stand that deep.

  Key definitions include:
    * `Lexis.counted?`
    * `Lexis.StandsAt`
    * `Lexis.IsIndented`
    * `Lexis.IsSuite`
    * `Lexis.Stands`
    * `Lexis.IsBody`

  Key theorems include:
    * `Lexis.StandsAt.level_unique`
    * `Lexis.IsSuite.append`
    * `Lexis.IsSuite.isIndented`
    * `Lexis.IsBody.block`
-/

namespace PipelineScript

namespace Lexis

------------------------------------------------------------
-- Lines That Count
------------------------------------------------------------

/- A line that says nothing: a blank one, or a comment. -/
def isIdle (line : List Char) : Bool :=
  match line.dropWhile Text.isBlank with
  | [] => true
  | c :: _ => c == '#'

/-
  The lines that say something and begin outside of brackets,
  where the first of all lines begins in the given number of
  them. There are none if a line cannot be read, or if brackets
  are still open behind the last line.
-/
def counted? (depth : Nat) :
    List (List Char) → Option (List (List Char))
  | [] => if depth = 0 then some [] else none
  | line :: rest =>
      match lineTokens? depth line with
      | none => none
      | some (_, next) =>
          (counted? next rest).map fun others =>
            if depth = 0 && !isIdle line then
              line :: others
            else
              others

/- Lines count as they do without those behind them. -/
theorem counted?_append
    {depth : Nat}
    {first second lines more : List (List Char)}
    (hFirst : counted? depth first = some lines)
    (hSecond : counted? 0 second = some more) :
    counted? depth (first ++ second) = some (lines ++ more) := by
  induction first generalizing depth lines with
  | nil =>
      rw [counted?] at hFirst
      split at hFirst
      · next hZero =>
          rw [← Option.some.inj hFirst, hZero]
          exact hSecond
      · simp at hFirst
  | cons line first ih =>
      rw [List.cons_append]
      unfold counted? at hFirst ⊢
      split at hFirst
      · simp at hFirst
      · next next hTokens =>
          rcases Option.map_eq_some_iff.mp hFirst with
            ⟨others, hOthers, rfl⟩
          rw [ih hOthers, Option.map_some]
          split
          · rfl
          · rfl

------------------------------------------------------------
-- Levels
------------------------------------------------------------

/- A line is so many units with something visible behind. -/
def StandsAt
    (unit : List Char)
    (level : Nat)
    (line : List Char) : Prop :=
  ∃ c rest,
    line = (List.replicate level unit).flatten ++ c :: rest ∧
      Text.isBlank c = false

/- A line that opens a block ends with a colon. -/
def isHeader (line : List Char) : Bool :=
  line.getLast? == some ':'

/- A line stands at one level only. -/
theorem StandsAt.level_unique
    {unit line : List Char}
    (hSome : unit ≠ [])
    (hBlank : ∀ c ∈ unit, Text.isBlank c = true)
    {level other : Nat}
    (hLevel : StandsAt unit level line)
    (hOther : StandsAt unit other line) :
    level = other := by
  -- What can be seen of the line begins where the units end.
  have hWidth :
      ∀ {level : Nat}, StandsAt unit level line →
        (line.takeWhile Text.isBlank).length =
          level * unit.length := by
    rintro level ⟨c, rest, rfl, hSeen⟩
    have hUnits :
        ∀ c ∈ (List.replicate level unit).flatten,
          Text.isBlank c = true := by
      intro c hMem
      rcases List.mem_flatten.mp hMem with ⟨copy, hCopy, hMem⟩
      rw [List.eq_of_mem_replicate hCopy] at hMem
      exact hBlank c hMem
    rw [List.takeWhile_append_of_pos hUnits,
      List.takeWhile_cons, hSeen]
    simp
  have hSame := (hWidth hLevel).symm.trans (hWidth hOther)
  exact Nat.eq_of_mul_eq_mul_right
    (List.length_pos_of_ne_nil hSome) hSame

------------------------------------------------------------
-- Indented Lines
------------------------------------------------------------

/- A line with the level it stands at. -/
abbrev Leveled := Nat × List Char

/-
  Lines that stand at levels. The first one stands at the
  margin. A line that opens a block has a line one level deeper
  behind it, and no other line has a deeper one. A line that
  stands further out than the one before it goes back to the
  level of a line that has opened the block, or one of the
  blocks, that end there.
-/
structure IsIndented
    (unit : List Char)
    (lines : List Leveled) : Prop where
  stands :
    ∀ line ∈ lines, ∀ level,
      StandsAt unit level line.2 ↔ level = line.1
  begins : ∀ line, lines.head? = some line → line.1 = 0
  opens :
    ∀ before header behind,
      lines = before ++ header :: behind →
        isHeader header.2 →
          ∃ next rest,
            behind = next :: rest ∧ next.1 = header.1 + 1
  goesOn :
    ∀ before line next behind,
      lines = before ++ line :: next :: behind →
        isHeader line.2 = false → next.1 ≤ line.1
  returns :
    ∀ before line next behind,
      lines = before ++ line :: next :: behind →
        next.1 < line.1 →
          ∃ outer header inner,
            before ++ [line] = outer ++ header :: inner ∧
              header.1 = next.1 ∧ isHeader header.2 ∧
              ∀ other ∈ inner, next.1 < other.1

/- How deep a line may stand behind another one. -/
def Follows (line next : Leveled) : Prop :=
  if isHeader line.2 then
    next.1 = line.1 + 1
  else
    next.1 ≤ line.1

/-
  Where lines begin at a level or further out and have come to
  stand deeper, some line at the level has opened the block.
-/
theorem exists_header
    {level : Nat}
    {lines : List Leveled}
    (hChain : lines.IsChain Follows)
    (hHead : ∀ line ∈ lines.head?, line.1 ≤ level)
    {last : Leveled}
    (hLast : lines.getLast? = some last)
    (hDeep : level < last.1) :
    ∃ outer header inner,
      lines = outer ++ header :: inner ∧
        header.1 = level ∧ isHeader header.2 ∧
        ∀ other ∈ inner, level < other.1 := by
  induction lines using List.reverseRecOn generalizing last with
  | nil => simp at hLast
  | append_singleton lines line ih =>
      rw [List.getLast?_concat, Option.some.injEq] at hLast
      subst hLast
      rw [List.isChain_append] at hChain
      cases hEnd : lines.getLast? with
      | none =>
          -- A single line is the first one, and not deep.
          rw [List.getLast?_eq_none_iff] at hEnd
          subst hEnd
          have hOut := hHead line rfl
          omega
      | some previous =>
          have hFollows : Follows previous line :=
            hChain.2.2 previous hEnd line rfl
          have hFront : ∀ first ∈ lines.head?, first.1 ≤ level := by
            intro first hFirst
            apply hHead first
            rw [List.head?_append, hFirst]
            rfl
          by_cases hPrevious : level < previous.1
          · rcases ih hChain.1 hFront hEnd hPrevious with
              ⟨outer, header, inner, rfl, hLevel, hOpens, hInner⟩
            refine ⟨outer, header, inner ++ [line], by simp,
              hLevel, hOpens, ?_⟩
            rw [List.forall_mem_append,
              List.forall_mem_singleton]
            exact ⟨hInner, hDeep⟩
          · rcases List.getLast?_eq_some_iff.mp hEnd with
              ⟨outer, rfl⟩
            have hOpens : isHeader previous.2 = true := by
              by_contra hPlain
              rw [Follows, if_neg hPlain] at hFollows
              omega
            rw [Follows, if_pos hOpens] at hFollows
            refine ⟨outer, previous, [line], by simp, by omega,
              hOpens, ?_⟩
            rw [List.forall_mem_singleton]
            exact hDeep

------------------------------------------------------------
-- Suites
------------------------------------------------------------

/-
  Lines that make up statements of one level: plain lines, and
  headers with suites behind them that are not empty.
-/
inductive IsSuite (unit : List Char) :
    Nat → List Leveled → Prop where
  | nil (level : Nat) : IsSuite unit level []
  | line {level : Nat} {text : List Char} {rest : List Leveled}
      (hStands : StandsAt unit level text)
      (hPlain : isHeader text = false)
      (hRest : IsSuite unit level rest) :
      IsSuite unit level ((level, text) :: rest)
  | block {level : Nat} {header : List Char}
      {body rest : List Leveled}
      (hStands : StandsAt unit level header)
      (hHeader : isHeader header)
      (hBody : IsSuite unit (level + 1) body)
      (hSome : body ≠ [])
      (hRest : IsSuite unit level rest) :
      IsSuite unit level ((level, header) :: (body ++ rest))

namespace IsSuite

variable {unit : List Char} {level : Nat}
variable {lines more : List Leveled}

/- A suite goes on with another one at its level. -/
theorem append
    (hFirst : IsSuite unit level lines)
    (hSecond : IsSuite unit level more) :
    IsSuite unit level (lines ++ more) := by
  induction hFirst with
  | nil => exact hSecond
  | line hStands hPlain _ ih =>
      exact .line hStands hPlain (ih hSecond)
  | block hStands hHeader hBody hSome _ _ ih =>
      rw [List.cons_append, List.append_assoc]
      exact .block hStands hHeader hBody hSome (ih hSecond)

/- All lines of a suite stand where they are said to stand. -/
theorem standsAt
    (hSuite : IsSuite unit level lines) :
    ∀ line ∈ lines, StandsAt unit line.1 line.2 := by
  induction hSuite with
  | nil => exact List.forall_mem_nil _
  | line hStands _ _ ih =>
      exact List.forall_mem_cons.mpr ⟨hStands, ih⟩
  | block hStands _ _ _ _ ihBody ih =>
      rw [List.forall_mem_cons, List.forall_mem_append]
      exact ⟨hStands, ihBody, ih⟩

/- No line of a suite stands further out than its level. -/
theorem le_level
    (hSuite : IsSuite unit level lines) :
    ∀ line ∈ lines, level ≤ line.1 := by
  induction hSuite with
  | nil => exact List.forall_mem_nil _
  | line _ _ _ ih =>
      exact List.forall_mem_cons.mpr ⟨Nat.le_refl _, ih⟩
  | block _ _ _ _ _ ihBody ih =>
      rw [List.forall_mem_cons, List.forall_mem_append]
      exact ⟨Nat.le_refl _,
        fun line hLine => Nat.le_of_succ_le (ihBody line hLine),
        ih⟩

/- A suite begins at its level. -/
theorem head_level
    (hSuite : IsSuite unit level lines) :
    ∀ line ∈ lines.head?, line.1 = level := by
  cases hSuite with
  | nil => simp
  | line => simp
  | block => simp

/- A suite does not end with the header of a block. -/
theorem last_plain
    (hSuite : IsSuite unit level lines) :
    ∀ line ∈ lines.getLast?, isHeader line.2 = false := by
  induction hSuite with
  | nil => simp
  | @line level text rest _ hPlain _ ih =>
      intro line hLine
      cases rest with
      | nil =>
          rw [List.getLast?_singleton, Option.mem_some] at hLine
          rw [← hLine]
          exact hPlain
      | cons next rest =>
          rw [List.getLast?_cons_cons] at hLine
          exact ih line hLine
  | @block level header body rest _ _ _ hSome _ ihBody ih =>
      intro line hLine
      rw [← List.singleton_append, List.getLast?_append,
        List.getLast?_append] at hLine
      cases hRest : rest.getLast? with
      | some last =>
          rw [hRest] at hLine
          exact ih line (hRest ▸ hLine)
      | none =>
          cases hBody : body.getLast? with
          | none =>
              exact absurd (List.getLast?_eq_none_iff.mp hBody)
                hSome
          | some last =>
              rw [hRest, hBody] at hLine
              exact ihBody line (hBody ▸ hLine)

/- In a suite every line follows the line before it. -/
theorem isChain
    (hSuite : IsSuite unit level lines) :
    lines.IsChain Follows := by
  induction hSuite with
  | nil => exact .nil
  | @line level text rest _ hPlain hRest ih =>
      rw [List.isChain_cons]
      refine ⟨?_, ih⟩
      intro next hNext
      rw [Follows, if_neg (by simp [hPlain]),
        hRest.head_level next hNext]
  | @block level header body rest _ hHeader hBody hSome hRest
      ihBody ih =>
      rw [List.isChain_cons, List.isChain_append]
      refine ⟨?_, ihBody, ih, ?_⟩
      · intro next hNext
        rw [List.head?_append_of_ne_nil _ hSome] at hNext
        rw [Follows, if_pos hHeader, hBody.head_level next hNext]
      · intro last hLast next hNext
        have hDeep :=
          hBody.le_level last (List.mem_of_getLast? hLast)
        have hPlain := hBody.last_plain last hLast
        rw [Follows, if_neg (by simp [hPlain]),
          hRest.head_level next hNext]
        omega

end IsSuite

/- Lines behind others in a list follow them. -/
theorem follows_of_isChain
    {lines before behind : List Leveled}
    {line next : Leveled}
    (hChain : lines.IsChain Follows)
    (hLines : lines = before ++ line :: next :: behind) :
    Follows line next := by
  rw [hLines, List.isChain_append] at hChain
  exact (List.isChain_cons_cons.mp hChain.2.1).1

/- A suite at the margin is indented as it should be. -/
theorem IsSuite.isIndented
    {unit : List Char}
    (hSome : unit ≠ [])
    (hBlank : ∀ c ∈ unit, Text.isBlank c = true)
    {lines : List Leveled}
    (hSuite : IsSuite unit 0 lines) :
    IsIndented unit lines where
  stands := by
    intro line hLine level
    have hOwn := hSuite.standsAt line hLine
    refine ⟨fun hLevel => ?_, fun hLevel => hLevel ▸ hOwn⟩
    exact hLevel.level_unique hSome hBlank hOwn
  begins := fun line hLine => hSuite.head_level line hLine
  opens := by
    intro before header behind hLines hHeader
    cases behind with
    | nil =>
        have hLast := hSuite.last_plain header
        rw [hLines, List.getLast?_concat] at hLast
        rw [hLast rfl] at hHeader
        exact absurd hHeader Bool.false_ne_true
    | cons next rest =>
        have hFollows := follows_of_isChain hSuite.isChain hLines
        rw [Follows, if_pos hHeader] at hFollows
        exact ⟨next, rest, rfl, hFollows⟩
  goesOn := by
    intro before line next behind hLines hPlain
    have hFollows := follows_of_isChain hSuite.isChain hLines
    rwa [Follows, if_neg (by simp [hPlain])] at hFollows
  returns := by
    intro before line next behind hLines hOut
    have hSplit : lines = (before ++ [line]) ++ next :: behind := by
      rw [hLines, List.append_assoc]
      rfl
    have hChain := hSuite.isChain
    rw [hSplit, List.isChain_append] at hChain
    refine exists_header hChain.1 ?_ List.getLast?_concat hOut
    intro first hFirst
    have hLevel := hSuite.head_level first
    rw [hSplit, List.head?_append, hFirst] at hLevel
    rw [hLevel rfl]
    exact Nat.zero_le _

------------------------------------------------------------
-- Texts as Suites
------------------------------------------------------------

/- Texts whose lines that count are a suite of some level. -/
def Stands
    (unit : List Char)
    (level : Nat)
    (texts : List String) : Prop :=
  ∃ lines,
    counted? 0 (texts.map String.toList) =
        some (lines.map Prod.snd) ∧
      IsSuite unit level lines

/-
  Texts of which at least one line counts, so that they can
  stand behind a header.
-/
def IsBody
    (unit : List Char)
    (level : Nat)
    (texts : List String) : Prop :=
  ∃ lines,
    counted? 0 (texts.map String.toList) =
        some (lines.map Prod.snd) ∧
      IsSuite unit level lines ∧
      lines ≠ []

variable {unit : List Char} {level : Nat}
variable {texts more : List String}

/- A body is a suite. -/
theorem IsBody.stands
    (hBody : IsBody unit level texts) :
    Stands unit level texts := by
  rcases hBody with ⟨lines, hCounted, hSuite, -⟩
  exact ⟨lines, hCounted, hSuite⟩

/- Nothing is a suite of any level. -/
theorem stands_nil (unit : List Char) (level : Nat) :
    Stands unit level [] :=
  ⟨[], rfl, .nil level⟩

/- Suites of one level one after the other are a suite. -/
theorem Stands.append
    (hFirst : Stands unit level texts)
    (hSecond : Stands unit level more) :
    Stands unit level (texts ++ more) := by
  rcases hFirst with ⟨lines, hLines, hSuite⟩
  rcases hSecond with ⟨others, hOthers, hSuiteToo⟩
  refine ⟨lines ++ others, ?_, hSuite.append hSuiteToo⟩
  rw [List.map_append, List.map_append]
  exact counted?_append hLines hOthers

/- A body with more lines in front of it is a body. -/
theorem Stands.append_body
    (hFirst : Stands unit level texts)
    (hSecond : IsBody unit level more) :
    IsBody unit level (texts ++ more) := by
  rcases hFirst with ⟨lines, hLines, hSuite⟩
  rcases hSecond with ⟨others, hOthers, hSuiteToo, hSome⟩
  refine ⟨lines ++ others, ?_, hSuite.append hSuiteToo, ?_⟩
  · rw [List.map_append, List.map_append]
    exact counted?_append hLines hOthers
  · exact List.append_ne_nil_of_right_ne_nil lines hSome

/- A body with more lines behind it is a body. -/
theorem IsBody.append
    (hFirst : IsBody unit level texts)
    (hSecond : Stands unit level more) :
    IsBody unit level (texts ++ more) := by
  rcases hFirst with ⟨lines, hLines, hSuite, hSome⟩
  rcases hSecond with ⟨others, hOthers, hSuiteToo⟩
  refine ⟨lines ++ others, ?_, hSuite.append hSuiteToo, ?_⟩
  · rw [List.map_append, List.map_append]
    exact counted?_append hLines hOthers
  · exact List.append_ne_nil_of_left_ne_nil hSome others

/- A line that does not count is a suite by itself. -/
theorem stands_idle
    {text : String}
    {tokens : List Placed}
    (hTokens : lineTokens? 0 text.toList = some (tokens, 0))
    (hIdle : isIdle text.toList = true) :
    Stands unit level [text] := by
  refine ⟨[], ?_, .nil level⟩
  simp [counted?, hTokens, hIdle]

/- A line that counts, with those that go on in its brackets. -/
theorem counted?_cons
    {depth : Nat}
    {text : String}
    {tokens : List Placed}
    (hTokens : lineTokens? 0 text.toList = some (tokens, depth))
    (hSaid : isIdle text.toList = false)
    (hMore : counted? depth (more.map String.toList) = some []) :
    counted? 0 ((text :: more).map String.toList) =
      some [text.toList] := by
  simp [counted?, hTokens, hSaid, hMore]

/- A plain line that counts is a body, with all its lines. -/
theorem isBody_line
    {text : String}
    (hCounted :
      counted? 0 ((text :: more).map String.toList) =
        some [text.toList])
    (hStands : StandsAt unit level text.toList)
    (hPlain : isHeader text.toList = false) :
    IsBody unit level (text :: more) :=
  ⟨[(level, text.toList)], hCounted,
    .line hStands hPlain (.nil level), List.cons_ne_nil _ _⟩

/- A header that counts is a body with a body behind it. -/
theorem IsBody.block
    {header : String}
    (hBody : IsBody unit (level + 1) texts)
    (hCounted :
      counted? 0 [header.toList] = some [header.toList])
    (hStands : StandsAt unit level header.toList)
    (hHeader : isHeader header.toList) :
    IsBody unit level (header :: texts) := by
  rcases hBody with ⟨lines, hLines, hSuite, hSome⟩
  have hBlock : IsSuite unit level
      ((level, header.toList) :: (lines ++ [])) :=
    .block hStands hHeader hSuite hSome (.nil level)
  rw [List.append_nil] at hBlock
  refine ⟨_, ?_, hBlock, List.cons_ne_nil _ _⟩
  rw [List.map_cons, List.map_cons]
  exact counted?_append hCounted hLines

end Lexis

end PipelineScript
