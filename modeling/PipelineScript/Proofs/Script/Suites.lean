import PipelineScript.Proofs.Lexis.Indentation
import PipelineScript.Proofs.Script.WorkingCode

/-
  Code whose lines are suites of the level that it is written
  at, and the ways in which a template puts a name or a value
  into a line of such code.

  Key definitions include:
    * `Lexis.Begins`
    * `Lexis.Ends`
    * `Lexis.IsStatement`
    * `Code.IsSuite`
    * `Code.IsBody`

  Key theorems include:
    * `Code.isIdle_lineAt`
    * `Code.IsBody.block`
    * `Code.IsBody.continued`
    * `Lexis.isStatement_named`
-/

namespace PipelineScript

------------------------------------------------------------
-- First and Last Characters
------------------------------------------------------------

namespace Lexis

/- A text can be seen from its start, and is no comment. -/
def Begins (text : String) : Prop :=
  ∃ c rest,
    text.toList = c :: rest ∧ Text.isBlank c = false ∧ c ≠ '#'

/- The last character of a text is a colon, or is none. -/
def Ends (isHead : Bool) (text : String) : Prop :=
  ∃ c, text.toList.getLast? = some c ∧ (c == ':') = isHead

/- The check that letters begin as a text should. -/
def isBeginning : List Char → Bool
  | [] => false
  | c :: _ => !Text.isBlank c && c != '#'

/- The check that letters end with a colon, or do not. -/
def isEnding (isHead : Bool) (letters : List Char) : Bool :=
  match letters.getLast? with
  | none => false
  | some c => (c == ':') == isHead

variable {isHead : Bool} {first second : String}
variable {text : String} {letters : List Char}

/- What stands in front is what a text begins with. -/
theorem Begins.append
    (hFirst : Begins first)
    (second : String) :
    Begins (first ++ second) := by
  rcases hFirst with ⟨c, rest, hLetters, hSeen⟩
  refine ⟨c, rest ++ second.toList, ?_, hSeen⟩
  rw [String.toList_append, hLetters, List.cons_append]

/- What stands behind is what a text ends with. -/
theorem Ends.behind
    (hSecond : Ends isHead second)
    (first : String) :
    Ends isHead (first ++ second) := by
  rcases hSecond with ⟨c, hLast, hHead⟩
  refine ⟨c, ?_, hHead⟩
  rw [String.toList_append, List.getLast?_append, hLast]
  rfl

/- A spelled text begins as its letters do. -/
theorem IsSpelled.begins
    (hText : IsSpelled text letters)
    (hCheck : isBeginning letters) :
    Begins text := by
  cases letters with
  | nil => exact absurd hCheck Bool.false_ne_true
  | cons c rest =>
      rw [isBeginning, Bool.and_eq_true, Bool.not_eq_true',
        bne_iff_ne] at hCheck
      exact ⟨c, rest, hText.toList_eq, hCheck⟩

/- A spelled text ends as its letters do. -/
theorem IsSpelled.ends
    (hText : IsSpelled text letters)
    (hCheck : isEnding isHead letters) :
    Ends isHead text := by
  unfold isEnding at hCheck
  split at hCheck
  · exact absurd hCheck Bool.false_ne_true
  · next c hLast =>
      refine ⟨c, ?_, beq_iff_eq.mp hCheck⟩
      rw [hText.toList_eq]
      exact hLast

/- A text in which no character is a colon does not end so. -/
theorem ends_of_forall
    (hSome : text.toList ≠ [])
    (hPlain : ∀ c ∈ text.toList, c ≠ ':') :
    Ends false text := by
  cases hLast : text.toList.getLast? with
  | none => exact absurd (List.getLast?_eq_none_iff.mp hLast) hSome
  | some c =>
      have hOther := hPlain c (List.mem_of_getLast? hLast)
      exact ⟨c, hLast, beq_false_of_ne hOther⟩

/- A name begins and ends with letters, digits or underscores. -/
theorem begins_of_isName
    {name : String}
    (hName : Text.isName name) :
    Begins name := by
  unfold Text.isName at hName
  unfold Begins
  cases hLetters : name.toList with
  | nil => simp [hLetters] at hName
  | cons c rest =>
      rw [hLetters, Bool.and_eq_true] at hName
      refine ⟨c, rest, rfl, ?_, ?_⟩
      · -- A blank letter would be none of those in names.
        rw [← Bool.not_eq_true]
        intro hBlank
        rcases Bool.or_eq_true_iff.mp hName.1 with hAlpha | hLine
        · rw [isAlpha_iff] at hAlpha
          simp [Text.isBlank] at hBlank
          omega
        · rw [beq_iff_eq.mp hLine] at hBlank
          exact absurd hBlank (by decide)
      · rintro rfl
        exact absurd hName.1 (by decide)

/- A quoted text ends with its mark. -/
theorem ends_text (value : String) :
    Ends false (Literal.text value) := by
  refine ⟨'\'', ?_, rfl⟩
  rw [Literal.text, String.toList_ofList, ← List.cons_append,
    List.getLast?_concat]

/- A numeral, with a sign or without, ends with no colon. -/
theorem ends_numeral
    {digits : List Char}
    (hNumeral : IsNumeral digits)
    (negative : Bool) :
    Ends false
      (String.ofList
        (if negative then '-' :: digits else digits)) := by
  have hDigits : ∀ c ∈ digits, c ≠ ':' := by
    intro c hMem
    rcases hNumeral.forall_mem c hMem with hDigit | rfl
    · rintro rfl
      exact absurd hDigit (by decide)
    · decide
  rcases hNumeral with ⟨first, rest, rfl, -⟩
  cases negative with
  | false =>
      apply ends_of_forall
      · simp
      · simpa using hDigits
  | true =>
      apply ends_of_forall
      · simp
      · rw [if_pos rfl, String.toList_ofList,
          List.forall_mem_cons]
        exact ⟨by decide, hDigits⟩

/- An integer ends with no colon. -/
theorem ends_integer (n : Int) :
    Ends false (Literal.integer n) := by
  have hEnds :=
    ends_numeral (isNumeral_natText n.natAbs) (decide (n < 0))
  simpa [Literal.integer, Number.intText] using hEnds

/- A binary number ends with no colon. -/
theorem ends_binary (x : Binary64) :
    Ends false (Literal.binary x) :=
  ends_numeral (isNumeral_magnitude x) x.negative

/- A truth value ends with no colon. -/
theorem ends_boolean (flag : Bool) :
    Ends false (Literal.boolean flag) := by
  cases flag with
  | false => exact ⟨'e', rfl, rfl⟩
  | true => exact ⟨'e', rfl, rfl⟩

------------------------------------------------------------
-- Statements on Lines of Their Own
------------------------------------------------------------

/-
  A text that begins a statement, with so many brackets open
  behind it. It opens a block if it ends with a colon.
-/
structure IsStatement
    (isHead : Bool)
    (depth : Nat)
    (text : String) : Prop where
  exists_tokens :
    ∃ tokens, lineTokens? 0 text.toList = some (tokens, depth)
  begins : Begins text
  ends : Ends isHead text

/- The check that letters begin a statement. -/
def beginsStatement
    (isHead : Bool)
    (depth : Nat)
    (letters : List Char) : Bool :=
  ((lineTokens? 0 letters).map Prod.snd == some depth)
    && isBeginning letters
    && isEnding isHead letters

variable {depth : Nat} {tokens last : List Placed}
variable {mode : Mode} {ending : List Token}

/- A spelled text begins a statement if its letters do. -/
theorem IsSpelled.isStatement
    (hText : IsSpelled text letters)
    (hCheck : beginsStatement isHead depth letters) :
    IsStatement isHead depth text := by
  simp only [beginsStatement, Bool.and_eq_true, beq_iff_eq]
    at hCheck
  refine ⟨?_, hText.begins hCheck.1.2, hText.ends hCheck.2⟩
  rcases Option.map_eq_some_iff.mp hCheck.1.1 with
    ⟨⟨tokens, behind⟩, hTokens, rfl⟩
  exact ⟨tokens, by rw [hText.toList_eq, hTokens]⟩

/- A literal begins a statement if its letters do. -/
theorem isStatement_literal
    (hCheck : beginsStatement isHead depth letters) :
    IsStatement isHead depth (String.ofList letters) :=
  (IsSpelled.literal letters).isStatement hCheck

/- A value is given to a name. -/
theorem isStatement_value
    {value : String}
    (hLine :
      run ⟨0, .blank⟩ letters = some (tokens, ⟨0, .blank⟩))
    (hBegins : isBeginning letters)
    (hValue : IsScalarText value)
    (hEnds : Ends false value) :
    IsStatement false 0 (String.ofList letters ++ value) := by
  rcases hValue with ⟨inner, -, hFills⟩
  refine ⟨⟨_, ((hFills 0).behind (.ofList hLine)).lineTokens?⟩,
    ?_, hEnds.behind _⟩
  exact ((IsSpelled.literal letters).begins hBegins).append value

/- A name in a statement, with something behind it. -/
theorem isStatement_named
    {name : String}
    (hName : Text.isName name)
    {inside : Nat}
    {back : List Char}
    (hFront :
      run ⟨0, .blank⟩ letters = some (tokens, ⟨inside, .blank⟩))
    (hBack :
      run ⟨inside, .name name.toList⟩ back =
        some (⟨inside, .name name.toList⟩ :: last, ⟨depth, mode⟩))
    (hEnded : ended mode = some ending)
    (hBegins : isBeginning letters)
    (hEnds : isEnding isHead back) :
    IsStatement isHead depth
      (String.ofList letters ++ name ++ String.ofList back) := by
  refine ⟨⟨_, lineTokens?_of_moves
    (moves_named hName hFront hBack) hEnded⟩, ?_, ?_⟩
  · exact (((IsSpelled.literal letters).begins hBegins).append
      name).append _
  · exact ((IsSpelled.literal back).ends hEnds).behind _

/- A name at the start of a statement. -/
theorem isStatement_own
    {name : String}
    (hName : Text.isName name)
    (hText : IsSpelled text letters)
    (hRun :
      run ⟨0, .name name.toList⟩ letters =
        some (tokens, ⟨depth, mode⟩))
    (hEnded : ended mode = some ending)
    (hEnds : isEnding isHead letters) :
    IsStatement isHead depth (name ++ text) := by
  have hMoves :
      Moves ⟨0, .blank⟩ (name ++ text) ([] ++ tokens)
        ⟨depth, mode⟩ := by
    apply (moves_name 0 hName).append
    rw [Moves, hText.toList_eq]
    exact hRun
  exact ⟨⟨_, lineTokens?_of_moves hMoves hEnded⟩,
    (begins_of_isName hName).append text,
    (hText.ends hEnds).behind name⟩

/- A text that stays in the brackets of a statement. -/
theorem isStatement_enclosing
    {known : List (List Char)}
    {inside : Nat}
    {back : List Char}
    (hFront :
      run ⟨0, .blank⟩ letters = some (tokens, ⟨inside, .blank⟩))
    (hText :
      Encloses known ⟨inside, .blank⟩ text ⟨inside, .blank⟩)
    (hBack :
      run ⟨inside, .blank⟩ back = some (last, ⟨depth, .blank⟩))
    (hBegins : isBeginning letters)
    (hEnds : isEnding isHead back) :
    IsStatement isHead depth
      (String.ofList letters ++ text ++ String.ofList back) := by
  rcases hText with ⟨inner, hInner, -⟩
  have hMoves :
      Moves ⟨0, .blank⟩
        (String.ofList letters ++ text ++ String.ofList back)
        (tokens ++ inner ++ last) ⟨depth, .blank⟩ :=
    ((Moves.ofList hFront).append hInner).append (.ofList hBack)
  refine ⟨⟨_, lineTokens?_of_done hMoves rfl⟩, ?_, ?_⟩
  · exact (((IsSpelled.literal letters).begins hBegins).append
      text).append _
  · exact ((IsSpelled.literal back).ends hEnds).behind _

/- The check of what stands in front of a compared text. -/
def isFront (letters : List Char) : Bool :=
  match run ⟨0, .blank⟩ letters with
  | some (_, ⟨0, .blank⟩) => isBeginning letters
  | _ => false

/- A comparison with a text, and a colon behind it. -/
theorem isStatement_condition
    {front : String}
    (hFront : IsSpelled front letters)
    (hCheck : isFront letters)
    (value : String) :
    IsStatement true 0 (front ++ Literal.text value ++ ":") := by
  have hFills :
      Fills 0 (Literal.text value) (placedAt 0 [.text]) :=
    ⟨[], .shut, [.text], moves_text 0 value, .shut, rfl⟩
  have hValue :
      Moves ⟨0, .blank⟩ (Literal.text value ++ ":")
        (placedAt 0 [.text] ++ placedAt 0 [.symbol ':'])
        ⟨0, .colon⟩ :=
    hFills.moves (by decide) rfl
  have hColon : Ends true ":" := ⟨':', rfl, rfl⟩
  unfold isFront at hCheck
  split at hCheck
  · next tokens hRun =>
      rw [← hFront.toList_eq] at hRun
      have hMoves := Moves.append hRun hValue
      rw [← String.append_assoc] at hMoves
      exact ⟨⟨_, lineTokens?_of_done hMoves rfl⟩,
        ((hFront.begins hCheck).append _).append _,
        hColon.behind _⟩
  · exact absurd hCheck Bool.false_ne_true

/- A text that says nothing is read as no tokens. -/
structure IsIdleText (text : String) : Prop where
  exists_tokens :
    ∃ tokens, lineTokens? 0 text.toList = some (tokens, 0)
  idle : isIdle text.toList = true

/- An empty text says nothing. -/
theorem isIdleText_empty : IsIdleText "" :=
  ⟨⟨[], rfl⟩, rfl⟩

/- A comment says nothing, whatever is in it. -/
theorem isIdleText_comment
    {mark : List Char}
    (hMark :
      run ⟨0, .blank⟩ ('#' :: mark) = some ([], ⟨0, .comment⟩))
    (hText : ∀ c ∈ text.toList, isLegible c) :
    IsIdleText (String.ofList ('#' :: mark) ++ text) := by
  have hMoves :
      Moves ⟨0, .blank⟩ (String.ofList ('#' :: mark) ++ text) []
        ⟨0, .comment⟩ :=
    (Moves.ofList hMark).append (moves_comment hText)
  refine ⟨⟨[], lineTokens?_of_done hMoves rfl⟩, ?_⟩
  rw [String.toList_append, String.toList_ofList]
  rfl

/- A comment without anything put into it says nothing. -/
theorem IsSpelled.isIdleText
    {mark : List Char}
    (hText : IsSpelled text ('#' :: mark))
    (hMark :
      run ⟨0, .blank⟩ ('#' :: mark) = some ([], ⟨0, .comment⟩)) :
    IsIdleText text := by
  rw [← hText.toList_eq] at hMark
  refine ⟨⟨[], lineTokens?_of_done hMark rfl⟩, ?_⟩
  rw [hText.toList_eq]
  rfl

end Lexis

------------------------------------------------------------
-- Lines of Code
------------------------------------------------------------

namespace Code

variable {unit : String}

/- Room is blank. -/
theorem isBlank_of_isRoom
    {c : Char}
    (hRoom : Lexis.isRoom c) :
    Text.isBlank c = true := by
  rcases Bool.or_eq_true_iff.mp hRoom with hC | hC
  · rw [beq_iff_eq.mp hC]
    rfl
  · rw [beq_iff_eq.mp hC]
    rfl

/- A text at a level says something if it did so before. -/
theorem isIdle_lineAt
    (hUnit : IsRoom unit)
    (entry : Nat × String) :
    Lexis.isIdle (lineAt unit entry).toList =
      Lexis.isIdle entry.2.toList := by
  unfold lineAt
  split
  · next hEmpty => rw [String.isEmpty_iff.mp hEmpty]
  · have hBlank :
        ∀ c ∈ (String.join
            (List.replicate entry.1 unit)).toList,
          Text.isBlank c = true :=
      fun c hMem =>
        isBlank_of_isRoom (isRoom_replicate hUnit entry.1 c hMem)
    rw [Writer.indented, String.toList_append, Lexis.isIdle,
      List.dropWhile_append_of_pos hBlank, ← Lexis.isIdle]

/- What goes on in brackets does so at any level. -/
theorem counted?_lineAt
    (hUnit : IsRoom unit)
    {depth : Nat}
    {entries : List (Nat × String)}
    (hNone :
      Lexis.counted? depth
          ((entries.map Prod.snd).map String.toList) =
        some []) :
    Lexis.counted? depth
        ((entries.map (lineAt unit)).map String.toList) =
      some [] := by
  induction entries generalizing depth with
  | nil => exact hNone
  | cons entry entries ih =>
      simp only [List.map_cons] at hNone ⊢
      unfold Lexis.counted? at hNone ⊢
      rw [lineTokens?_lineAt hUnit, isIdle_lineAt hUnit]
      split at hNone
      · simp at hNone
      · next next hTokens =>
          rcases Option.map_eq_some_iff.mp hNone with
            ⟨others, hOthers, hNil⟩
          split at hNil
          · exact absurd hNil (List.cons_ne_nil _ _)
          · next hSkipped =>
              rw [hNil] at hOthers
              simp only [ih hOthers, Option.map_some,
                if_neg hSkipped]

/- A text that can be seen stands at the level of its line. -/
theorem standsAt_lineAt
    {text : String}
    (hBegins : Lexis.Begins text)
    (level : Nat) :
    Lexis.StandsAt unit.toList level
      (lineAt unit (level, text)).toList := by
  rcases hBegins with ⟨c, rest, hLetters, hSeen, -⟩
  have hSome : text.isEmpty = false := by
    rw [← Bool.not_eq_true, String.isEmpty_iff]
    rintro rfl
    exact absurd hLetters (List.cons_ne_nil c rest).symm
  refine ⟨c, rest, ?_, hSeen⟩
  simp only [lineAt, hSome, Writer.indented]
  rw [if_neg Bool.false_ne_true, String.toList_append,
    String.toList_join, hLetters, List.flatMap_replicate]

/- The end of a text is the end of its line. -/
theorem isHeader_lineAt
    {isHead : Bool}
    {text : String}
    (hEnds : Lexis.Ends isHead text)
    (level : Nat) :
    Lexis.isHeader (lineAt unit (level, text)).toList =
      isHead := by
  rcases hEnds with ⟨c, hLast, hHead⟩
  have hSome : text.isEmpty = false := by
    rw [← Bool.not_eq_true, String.isEmpty_iff]
    rintro rfl
    simp at hLast
  simp only [lineAt, hSome, Writer.indented]
  rw [if_neg Bool.false_ne_true, String.toList_append,
    Lexis.isHeader, List.getLast?_append, hLast]
  exact hHead

/- A text that can be seen is no comment. -/
theorem isIdle_of_begins
    {text : String}
    (hBegins : Lexis.Begins text) :
    Lexis.isIdle text.toList = false := by
  rcases hBegins with ⟨c, rest, hLetters, hSeen, hMark⟩
  rw [hLetters, Lexis.isIdle, List.dropWhile_cons, hSeen]
  exact beq_false_of_ne hMark

------------------------------------------------------------
-- Suites of Code
------------------------------------------------------------

/- Code whose lines are a suite of the level they stand at. -/
def IsSuite (unit : String) (items : List Item) : Prop :=
  ∀ level,
    Lexis.Stands unit.toList level
      ((entries level items).map (lineAt unit))

/- Code that can stand behind a header as well. -/
def IsBody (unit : String) (items : List Item) : Prop :=
  ∀ level,
    Lexis.IsBody unit.toList level
      ((entries level items).map (lineAt unit))

variable {items more : List Item}

/- A body is a suite. -/
theorem IsBody.isSuite
    (hBody : IsBody unit items) :
    IsSuite unit items :=
  fun level => (hBody level).stands

/- Nothing is a suite. -/
theorem IsSuite.nil : IsSuite unit [] :=
  fun level => Lexis.stands_nil unit.toList level

/- A suite goes on with a suite. -/
theorem IsSuite.append
    (hFirst : IsSuite unit items)
    (hSecond : IsSuite unit more) :
    IsSuite unit (items ++ more) := by
  intro level
  rw [entries_append, List.map_append]
  exact (hFirst level).append (hSecond level)

/- A body with a suite in front of it is a body. -/
theorem IsSuite.append_body
    (hFirst : IsSuite unit items)
    (hSecond : IsBody unit more) :
    IsBody unit (items ++ more) := by
  intro level
  rw [entries_append, List.map_append]
  exact (hFirst level).append_body (hSecond level)

section Lines

variable (hUnit : IsRoom unit)

include hUnit

/- A comment, and what follows it. -/
theorem IsSuite.idle
    {text : String}
    (hText : Lexis.IsIdleText text)
    (hRest : IsSuite unit items) :
    IsSuite unit (.line text :: items) := by
  intro level
  rcases hText.exists_tokens with ⟨tokens, hTokens⟩
  rw [← lineTokens?_lineAt hUnit (level, text)] at hTokens
  have hIdle := isIdle_lineAt hUnit (level, text)
  rw [hText.idle] at hIdle
  exact (Lexis.stands_idle hTokens hIdle).append (hRest level)

/- An empty line, and what follows it. -/
theorem IsSuite.blank
    (hRest : IsSuite unit items) :
    IsSuite unit (.blank :: items) :=
  IsSuite.idle hUnit Lexis.isIdleText_empty hRest

/- A statement counts as the line at its level. -/
theorem counted?_statement
    {isHead : Bool}
    {depth : Nat}
    {text : String}
    (hText : Lexis.IsStatement isHead depth text)
    (level : Nat)
    (following : List (Nat × String))
    (hFollowing :
      Lexis.counted? depth
          ((following.map Prod.snd).map String.toList) =
        some []) :
    Lexis.counted? 0
        ((lineAt unit (level, text)
            :: following.map (lineAt unit)).map String.toList) =
      some [(lineAt unit (level, text)).toList] := by
  rcases hText.exists_tokens with ⟨tokens, hTokens⟩
  rw [← lineTokens?_lineAt hUnit (level, text)] at hTokens
  refine Lexis.counted?_cons hTokens ?_
    (counted?_lineAt hUnit hFollowing)
  rw [isIdle_lineAt hUnit]
  exact isIdle_of_begins hText.begins

/- A statement on one line, and what follows it. -/
theorem IsBody.line
    {text : String}
    (hText : Lexis.IsStatement false 0 text)
    (hRest : IsSuite unit items) :
    IsBody unit (.line text :: items) := by
  intro level
  have hLine :
      Lexis.IsBody unit.toList level
        [lineAt unit (level, text)] :=
    Lexis.isBody_line
      (counted?_statement hUnit hText level [] rfl)
      (standsAt_lineAt hText.begins level)
      (isHeader_lineAt hText.ends level)
  exact hLine.append (hRest level)

/- A suite goes on behind a statement on one line. -/
theorem IsSuite.line
    {text : String}
    (hText : Lexis.IsStatement false 0 text)
    (hRest : IsSuite unit items) :
    IsSuite unit (.line text :: items) :=
  (IsBody.line hUnit hText hRest).isSuite

/- A header with a body, and what follows it. -/
theorem IsBody.block
    {header : String}
    {body : List Item}
    (hHeader : Lexis.IsStatement true 0 header)
    (hBody : IsBody unit body)
    (hRest : IsSuite unit items) :
    IsBody unit (.block header body :: items) := by
  intro level
  have hBlock :
      Lexis.IsBody unit.toList level
        (lineAt unit (level, header) ::
          (entries (level + 1) body).map (lineAt unit)) :=
    (hBody (level + 1)).block
      (counted?_statement hUnit hHeader level [] rfl)
      (standsAt_lineAt hHeader.begins level)
      (isHeader_lineAt hHeader.ends level)
  have hAll := hBlock.append (hRest level)
  rw [entries, entriesOf, List.map_append]
  exact hAll

/- A suite goes on behind a header with a body. -/
theorem IsSuite.block
    {header : String}
    {body : List Item}
    (hHeader : Lexis.IsStatement true 0 header)
    (hBody : IsBody unit body)
    (hRest : IsSuite unit items) :
    IsSuite unit (.block header body :: items) :=
  (IsBody.block hUnit hHeader hBody hRest).isSuite

/-
  A statement that goes on in brackets over the lines behind
  it, up to the last of them.
-/
theorem IsBody.continued
    {header : String}
    {body : List Item}
    {depth : Nat}
    (hHeader : Lexis.IsStatement false depth header)
    (hFollowing :
      Lexis.counted? depth
          ((texts body ++ texts items).map String.toList) =
        some []) :
    IsBody unit (.block header body :: items) := by
  intro level
  have hTexts :
      (entries (level + 1) body ++ entries level items).map
          Prod.snd =
        texts body ++ texts items := by
    rw [List.map_append, map_snd_entries, map_snd_entries]
  rw [← hTexts] at hFollowing
  have hLine :=
    Lexis.isBody_line
      (counted?_statement hUnit hHeader level _ hFollowing)
      (standsAt_lineAt hHeader.begins level)
      (isHeader_lineAt hHeader.ends level)
  rw [entries, entriesOf, List.cons_append, List.map_cons]
  exact hLine

end Lines

end Code

end PipelineScript
