import PipelineScript.Proofs.Script.Rendering
import PipelineScript.Proofs.Script.Working

/-
  Code whose statements work on names that the script keeps
  for itself, and the ways in which a template puts an input,
  a value or the name of a node into such statements.

  Key definitions include:
    * `Code.IsWorking`
    * `Lexis.Encloses`
    * `Lexis.isClosing`

  Key theorems include:
    * `Code.isClosed_render`
    * `Lexis.isWorkingText_named`
    * `Lexis.isWorkingText_enclosing`
-/

namespace PipelineScript

------------------------------------------------------------
-- Working Code
------------------------------------------------------------

namespace Code

variable {known : List (List Char)}

/- Items whose texts make up statements that work. -/
def IsWorking
    (known : List (List Char))
    (items : List Item) : Prop :=
  Lexis.Yields (Lexis.Works known) (texts items)

namespace IsWorking

/- Nothing works. -/
theorem nil : IsWorking known [] :=
  Lexis.yields_of_isWorkingText (List.forall_mem_nil _)

/- A line that works, and what follows it. -/
theorem line
    {text : String}
    {rest : List Item}
    (hText : Lexis.IsWorkingText known text)
    (hRest : IsWorking known rest) :
    IsWorking known (.line text :: rest) := by
  have hLine : Lexis.Yields (Lexis.Works known) [text] :=
    Lexis.yields_of_isWorkingText
      (List.forall_mem_singleton.mpr hText)
  exact hLine.append hRest

/- An empty line, and what follows it. -/
theorem blank
    {rest : List Item}
    (hRest : IsWorking known rest) :
    IsWorking known (.blank :: rest) := by
  have hBlank : Lexis.Yields (Lexis.Works known) [""] :=
    ⟨[], rfl, by simp⟩
  exact hBlank.append hRest

/- Working code goes on with working code. -/
theorem append
    {first second : List Item}
    (hFirst : IsWorking known first)
    (hSecond : IsWorking known second) :
    IsWorking known (first ++ second) := by
  unfold IsWorking
  rw [texts_append]
  exact Lexis.Yields.append hFirst hSecond

/- A block whose header and body work, and what follows it. -/
theorem block
    {header : String}
    {body rest : List Item}
    (hHeader : Lexis.IsWorkingText known header)
    (hBody : IsWorking known body)
    (hRest : IsWorking known rest) :
    IsWorking known (.block header body :: rest) := by
  have hHeaderYields :
      Lexis.Yields (Lexis.Works known) [header] :=
    Lexis.yields_of_isWorkingText
      (List.forall_mem_singleton.mpr hHeader)
  exact (hHeaderYields.append hBody).append hRest

end IsWorking

end Code

namespace Lexis

variable {known : List (List Char)}
variable {tokens first last : List Placed}
variable {state next : State}

------------------------------------------------------------
-- Lines with an Input
------------------------------------------------------------

/- A name between two literals. -/
theorem moves_named
    {name : String}
    (hName : Text.isName name)
    {depth : Nat}
    {front back : List Char}
    (hFront : run state front = some (first, ⟨depth, .blank⟩))
    (hBack :
      run ⟨depth, .name name.toList⟩ back =
        some (⟨depth, .name name.toList⟩ :: last, next)) :
    Moves state (String.ofList front ++ name ++ String.ofList back)
      (first ++ ⟨depth, .name name.toList⟩ :: last) next := by
  have hMoves :
      Moves state (String.ofList front ++ name) (first ++ [])
        ⟨depth, .name name.toList⟩ :=
    (Moves.ofList hFront).append (moves_name depth hName)
  rw [List.append_nil] at hMoves
  exact hMoves.append (.ofList hBack)

/- A known name among ordinary ones. -/
theorem isKnown_named
    {letters : List Char}
    (hLetters : letters ∈ known)
    (depth : Nat)
    (hAround : areOrdinary (first ++ last)) :
    ∀ placed ∈ first ++ ⟨depth, .name letters⟩ :: last,
      IsKnown known placed := by
  have hKnown : ∀ placed ∈ first ++ last, IsKnown known placed :=
    isKnown_of_areOrdinary hAround
  rw [List.forall_mem_append] at hKnown ⊢
  rw [List.forall_mem_cons]
  refine ⟨hKnown.1, ?_, hKnown.2⟩
  intro other hToken
  rw [Token.name.injEq] at hToken
  exact Or.inl (hToken ▸ hLetters)

/-
  A line with a known name in it works if what it binds are
  names that the script keeps, and all other names are plain.
-/
theorem isWorkingText_named
    {name : String}
    (hName : Text.isName name)
    (hKnown : name.toList ∈ known)
    {depth : Nat}
    {front back : List Char}
    {mode : Mode}
    {ending : List Token}
    (hFront :
      run ⟨0, .blank⟩ front = some (first, ⟨depth, .blank⟩))
    (hBack :
      run ⟨depth, .name name.toList⟩ back =
        some (⟨depth, .name name.toList⟩ :: last, ⟨0, mode⟩))
    (hEnded : ended mode = some ending)
    (hAround :
      areOrdinary (first ++ (last ++ placedAt 0 ending)))
    (hWorking :
      let line :=
        first ++ ⟨depth, .name name.toList⟩ ::
          (last ++ placedAt 0 ending)
      (isDirect line &&
        (boundLetters line).all
          reservedSpelling.1.contains) = true) :
    IsWorkingText known
      (String.ofList front ++ name ++ String.ofList back) := by
  dsimp only at hWorking
  rw [Bool.and_eq_true] at hWorking
  have hMoves := moves_named hName hFront hBack
  refine ⟨_, lineTokens?_of_moves hMoves hEnded, fun _ => ?_⟩
  rw [List.append_assoc, List.cons_append]
  refine ⟨⟨hWorking.1, isKnown_named hKnown depth hAround⟩, ?_⟩
  intro letters hMem
  exact List.contains_iff_mem.mp
    (List.all_eq_true.mp hWorking.2 letters hMem)

------------------------------------------------------------
-- Texts in Brackets
------------------------------------------------------------

/-
  A text that stays in brackets and has known names only, from
  where it begins to where something else can begin.
-/
def Encloses
    (known : List (List Char))
    (state : State)
    (text : String)
    (next : State) : Prop :=
  ∃ tokens, Moves state text tokens next ∧
    ∀ placed ∈ tokens,
      1 ≤ placed.depth ∧ IsKnown known placed

/- The check that tokens are ordinary and in brackets. -/
def areEnclosed (tokens : List Placed) : Bool :=
  tokens.all (fun placed => decide (1 ≤ placed.depth))
    && areOrdinary tokens

/- Tokens that pass the check are in brackets, and known. -/
theorem enclosed_of_areEnclosed
    (hCheck : areEnclosed tokens) :
    ∀ placed ∈ tokens,
      1 ≤ placed.depth ∧ IsKnown known placed := by
  rw [areEnclosed, Bool.and_eq_true, List.all_eq_true] at hCheck
  intro placed hPlaced
  exact ⟨of_decide_eq_true (hCheck.1 placed hPlaced),
    isKnown_of_areOrdinary hCheck.2 placed hPlaced⟩

/- A literal stays in brackets if its tokens do. -/
theorem encloses_literal
    {letters : List Char}
    (hRun : run state letters = some (tokens, next))
    (hCheck : areEnclosed tokens) :
    Encloses known state (String.ofList letters) next :=
  ⟨tokens, .ofList hRun, enclosed_of_areEnclosed hCheck⟩

/- A value in brackets, and what ends it. -/
theorem Encloses.value
    {depth : Nat}
    {text value : String}
    (hText : Encloses known state text ⟨depth + 1, .blank⟩)
    (hValue : IsQuietText value)
    {c : Char}
    {letters : List Char}
    (hEnder : c ∈ enders)
    (hRun :
      run ⟨depth + 1, .blank⟩ (c :: letters) =
        some (tokens, next))
    (hCheck : areEnclosed tokens) :
    Encloses known state
      (text ++ value ++ String.ofList (c :: letters)) next := by
  rcases hText with ⟨inner, hInner, hAll⟩
  rcases hValue (depth + 1) with ⟨others, hOthers, hQuiet⟩
  refine ⟨inner ++ (others ++ tokens), ?_, ?_⟩
  · rw [String.append_assoc]
    exact hInner.append (hOthers.moves hEnder hRun)
  · simp only [List.forall_mem_append]
    refine ⟨hAll, ?_, enclosed_of_areEnclosed hCheck⟩
    intro placed hPlaced
    rcases hQuiet.isKnown placed hPlaced with
      ⟨hInside, hKnown⟩
    exact ⟨Nat.le_trans (Nat.succ_pos depth) hInside, hKnown⟩

/- A known name in brackets, among ordinary ones. -/
theorem enclosed_named
    {letters : List Char}
    (hLetters : letters ∈ known)
    {depth : Nat}
    (hDepth : 1 ≤ depth)
    (hAround : areEnclosed (first ++ last)) :
    ∀ placed ∈ first ++ ⟨depth, .name letters⟩ :: last,
      1 ≤ placed.depth ∧ IsKnown known placed := by
  have hOthers :
      ∀ placed ∈ first ++ last,
        1 ≤ placed.depth ∧ IsKnown known placed :=
    enclosed_of_areEnclosed hAround
  rw [List.forall_mem_append] at hOthers ⊢
  rw [List.forall_mem_cons]
  refine ⟨hOthers.1, ⟨hDepth, ?_⟩, hOthers.2⟩
  intro other hToken
  rw [Token.name.injEq] at hToken
  exact Or.inl (hToken ▸ hLetters)

/- A line works around a text that stays in brackets. -/
theorem isWorkingText_enclosing
    {depth : Nat}
    {text : String}
    {front back : List Char}
    (hFront :
      run ⟨0, .blank⟩ front = some (first, ⟨depth, .blank⟩))
    (hText :
      Encloses known ⟨depth, .blank⟩ text ⟨depth, .blank⟩)
    (hBack :
      run ⟨depth, .blank⟩ back = some (last, ⟨0, .blank⟩))
    (hWorking : isWorking (first ++ last)) :
    IsWorkingText known
      (String.ofList front ++ text ++ String.ofList back) := by
  rcases hText with ⟨inner, hInner, hAll⟩
  have hMoves :
      Moves ⟨0, .blank⟩
        (String.ofList front ++ text ++ String.ofList back)
        (first ++ inner ++ last) ⟨0, .blank⟩ :=
    ((Moves.ofList hFront).append hInner).append
      (.ofList hBack)
  refine ⟨_, lineTokens?_of_done hMoves rfl, fun _ => ?_⟩
  exact works_around hAll hWorking

/-
  The check of what stands in front of a text and a colon at
  the end of a line.
-/
def isCondition (line : List Char) : Bool :=
  match run ⟨0, .blank⟩ line with
  | some (tokens, ⟨0, .blank⟩) =>
      isWorking (tokens ++ placedAt 0 [.text, .symbol ':'])
  | _ => false

/- A line that compares with a text works if the rest does. -/
theorem isWorkingText_condition
    {front : String}
    {letters : List Char}
    (hFront : IsSpelled front letters)
    (hCheck : isCondition letters)
    (value : String) :
    IsWorkingText known
      (front ++ Literal.text value ++ ":") := by
  have hFills :
      Fills 0 (Literal.text value) (placedAt 0 [.text]) :=
    ⟨[], .shut, [.text], moves_text 0 value, .shut, rfl⟩
  have hValue :
      Moves ⟨0, .blank⟩ (Literal.text value ++ ":")
        (placedAt 0 [.text] ++ placedAt 0 [.symbol ':'])
        ⟨0, .colon⟩ :=
    hFills.moves (by decide) rfl
  unfold isCondition at hCheck
  split at hCheck
  · next tokens hRun =>
      rw [← hFront.toList_eq] at hRun
      have hMoves := Moves.append hRun hValue
      rw [String.append_assoc]
      refine ⟨_, lineTokens?_of_done hMoves rfl, fun _ => ?_⟩
      exact works_of_isWorking hCheck
  · simp at hCheck

------------------------------------------------------------
-- Closing Lines
------------------------------------------------------------

/- The check of what a name of its own can be given. -/
def isClosing (value : List Placed) : Bool :=
  !(outer value).contains (.symbol '=')
    && !(outer value).contains (.symbol ':')
    && areOrdinary value

/- A name is given what passes the check. -/
theorem closes_of_isClosing
    {own : List Char}
    {value : List Placed}
    (hLoop : own ≠ ['f', 'o', 'r'])
    (hValue : isClosing value) :
    Closes own known
      (⟨0, .name own⟩ :: ⟨0, .symbol '='⟩ :: value) := by
  simp only [isClosing, Bool.and_eq_true, Bool.not_eq_true',
    List.contains_eq_mem, decide_eq_false_iff_not] at hValue
  exact closes_of_isKnown hLoop hValue.1.1 hValue.1.2
    (isKnown_of_areOrdinary hValue.2)

/- What is given may have known names in brackets. -/
theorem closes_around
    {own : List Char}
    {inner : List Placed}
    (hLoop : own ≠ ['f', 'o', 'r'])
    (hInner :
      ∀ placed ∈ inner,
        1 ≤ placed.depth ∧ IsKnown known placed)
    (hAround : isClosing (first ++ last)) :
    Closes own known
      (⟨0, .name own⟩ :: ⟨0, .symbol '='⟩ ::
        (first ++ inner ++ last)) := by
  have hOuter : outer (first ++ inner ++ last) =
      outer (first ++ last) :=
    outer_around fun placed hPlaced =>
      (hInner placed hPlaced).1
  simp only [isClosing, Bool.and_eq_true, Bool.not_eq_true',
    List.contains_eq_mem, decide_eq_false_iff_not, ← hOuter]
    at hAround
  refine closes_of_isKnown hLoop hAround.1.1 hAround.1.2 ?_
  have hKnown :
      ∀ placed ∈ first ++ last, IsKnown (own :: known) placed :=
    isKnown_of_areOrdinary hAround.2
  simp only [List.forall_mem_append] at hKnown ⊢
  refine ⟨⟨hKnown.1, ?_⟩, hKnown.2⟩
  intro placed hPlaced letters hToken
  rcases (hInner placed hPlaced).2 letters hToken with
    hOld | hOrdinary
  · exact Or.inl (List.mem_cons_of_mem _ hOld)
  · exact Or.inr hOrdinary

/- A name has no room in front of it. -/
theorem takeWhile_isRoom_name
    {name : String}
    (hName : Text.isName name)
    (text : String) :
    (name ++ text).toList.takeWhile isRoom = [] := by
  rw [String.toList_append]
  unfold Text.isName at hName
  cases hLetters : name.toList with
  | nil => simp [hLetters] at hName
  | cons c rest =>
      rw [hLetters, Bool.and_eq_true] at hName
      have hRoom : isRoom c = false := by
        rw [← Bool.not_eq_true, isRoom, Bool.or_eq_true,
          beq_iff_eq, beq_iff_eq]
        rintro (rfl | rfl)
        · exact absurd hName.1 (by decide)
        · exact absurd hName.1 (by decide)
      rw [List.cons_append, List.takeWhile_cons, hRoom]
      rfl

/- A line and an empty line are one statement. -/
theorem gather_line
    {line : List Char}
    (hTokens : lineTokens? 0 line = some (tokens, 0))
    (hSome : tokens ≠ []) :
    gather none [line, []] =
      some [⟨(line.takeWhile isRoom).length, tokens⟩] := by
  have hBlank : lineTokens? 0 [] = some ([], 0) := rfl
  simp [gather, hTokens, hBlank, extend, hSome]

end Lexis

namespace Code

variable {known : List (List Char)} {unit own : String}

/- An entry without an indent is its text. -/
theorem lineAt_zero
    (unit text : String) :
    lineAt unit (0, text) = text := by
  unfold lineAt
  split
  · next hEmpty => exact (String.isEmpty_iff.mp hEmpty).symm
  · exact String.empty_append

/- A statement that goes on over the lines of a block. -/
theorem gather_block
    (hUnit : IsRoom unit)
    {header one two : String}
    {tokens more others : List Lexis.Placed}
    {depth inner : Nat}
    (hHeader :
      Lexis.Moves ⟨0, .blank⟩ header tokens ⟨depth + 1, .blank⟩)
    (hOne :
      Lexis.Moves ⟨depth + 1, .blank⟩ one more
        ⟨inner + 1, .blank⟩)
    (hTwo :
      Lexis.Moves ⟨inner + 1, .blank⟩ two others ⟨0, .blank⟩)
    (hSome : tokens ≠ []) :
    Lexis.gather none
        (((entries 0
          [.block header [.line one, .line two], .blank]).map
            (lineAt unit)).map String.toList) =
      some
        [⟨(header.toList.takeWhile Lexis.isRoom).length,
          tokens ++ more ++ others⟩] := by
  have hHeaderTokens := Lexis.lineTokens?_of_done hHeader rfl
  have hOneTokens := Lexis.lineTokens?_of_done hOne rfl
  have hTwoTokens := Lexis.lineTokens?_of_done hTwo rfl
  rw [← lineTokens?_lineAt hUnit (1, one)] at hOneTokens
  rw [← lineTokens?_lineAt hUnit (1, two)] at hTwoTokens
  have hBlank : Lexis.lineTokens? 0 [] = some ([], 0) := rfl
  show Lexis.gather none
    [(lineAt unit (0, header)).toList,
      (lineAt unit (1, one)).toList,
      (lineAt unit (1, two)).toList, []] = _
  rw [lineAt_zero]
  simp [Lexis.gather, hHeaderTokens, hOneTokens, hTwoTokens,
    hBlank, Lexis.extend, hSome]

/-
  A block of working code closes if the last of its statements
  gives a value to a name of its own.
-/
theorem isClosed_render
    (hUnit : IsRoom unit)
    {front closing : List Item}
    (hFront : IsWorking known front)
    {statement : Lexis.Statement}
    (hClosing :
      Lexis.gather none
          (((entries 0 closing).map (lineAt unit)).map
            String.toList) =
        some [statement])
    (hIndent : statement.indent = 0)
    (hCloses :
      Lexis.Closes own.toList known statement.tokens) :
    Lexis.IsClosed own.toList known
      (render unit (front ++ closing)) := by
  rw [render_eq_map, entries_append, List.map_append]
  rw [IsWorking, ← map_snd_entries 0] at hFront
  exact Lexis.isClosed_append (yields_lineAt hUnit hFront)
    hClosing hIndent hCloses

/- A block that closes with one line. -/
theorem isClosed_line
    (hUnit : IsRoom unit)
    (hOwn : Text.isName own)
    (hLoop : own.toList ≠ ['f', 'o', 'r'])
    {front : List Item}
    (hFront : IsWorking known front)
    {text : String}
    {letters : List Char}
    (hText : Lexis.IsSpelled text letters)
    {value : List Lexis.Placed}
    {mode : Lexis.Mode}
    {ending : List Lexis.Token}
    (hValue :
      Lexis.run ⟨0, .name own.toList⟩ letters =
        some
          (⟨0, .name own.toList⟩ :: ⟨0, .symbol '='⟩ :: value,
            ⟨0, mode⟩))
    (hEnded : Lexis.ended mode = some ending)
    (hCheck :
      Lexis.isClosing (value ++ Lexis.placedAt 0 ending)) :
    Lexis.IsClosed own.toList known
      (render unit (front ++ [.line (own ++ text), .blank])) := by
  have hMoves :
      Lexis.Moves ⟨0, .blank⟩ (own ++ text)
        ([] ++
          ⟨0, .name own.toList⟩ :: ⟨0, .symbol '='⟩ :: value)
        ⟨0, mode⟩ := by
    apply (Lexis.moves_name 0 hOwn).append
    rw [Lexis.Moves, hText.toList_eq]
    exact hValue
  have hTokens := Lexis.lineTokens?_of_moves hMoves hEnded
  rw [List.nil_append, List.cons_append, List.cons_append]
    at hTokens
  have hGather := Lexis.gather_line hTokens (by simp)
  rw [Lexis.takeWhile_isRoom_name hOwn,
    ← lineAt_zero unit (own ++ text)] at hGather
  exact isClosed_render hUnit hFront hGather rfl
    (Lexis.closes_of_isClosing hLoop hCheck)

end Code

end PipelineScript
