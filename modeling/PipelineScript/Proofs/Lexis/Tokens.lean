import PipelineScript.Text.Control
import PipelineScript.Text.Name

/-
  The lines of a script, taken apart into tokens.

  Only a part of the language is understood, and everything
  else is refused: no text goes over several lines, no line
  is continued by a mark at its end, and no two statements
  share a line. A token comes with the number of brackets it
  stands in.

  Key definitions include:
    * `Lexis.Token`
    * `Lexis.Mode`
    * `Lexis.step`
    * `Lexis.run`
    * `Lexis.lineTokens?`

  Key theorems include:
    * `Lexis.Moves.append`
    * `Lexis.Rests.run`
    * `Lexis.isLegible_of_run`
-/

namespace PipelineScript

namespace Lexis

------------------------------------------------------------
-- Tokens
------------------------------------------------------------

/-
  A name, a name behind a point, a number, a text, or a
  symbol. Words of the language count as names, and so do the
  names of arguments.
-/
inductive Token where
  | name (letters : List Char)
  | member
  | number
  | text
  | symbol (c : Char)
deriving DecidableEq, Repr

/- A token, and how many brackets are open around it. -/
structure Placed where
  depth : Nat
  token : Token
deriving DecidableEq, Repr

/- Tokens that stand in the same brackets. -/
def placedAt
    (depth : Nat)
    (tokens : List Token) : List Placed :=
  tokens.map (Placed.mk depth)

/- What is being read, and has not come to its end. -/
inductive Mode where
  | blank
  | name (letters : List Char)
  | member
  | number
  | text (mark : Char)
  | escaped (mark : Char)
  | shut
  | point
  | colon
  | comment
deriving DecidableEq, Repr

/- The brackets that are open, and what is being read. -/
structure State where
  depth : Nat
  mode : Mode
deriving DecidableEq, Repr

------------------------------------------------------------
-- Characters
------------------------------------------------------------

/- A mark that opens and closes a text. -/
def isQuote (c : Char) : Bool :=
  c == '\'' || c == '"'

/- A character that makes room on a line. -/
def isRoom (c : Char) : Bool :=
  c == ' ' || c == '\t'

/- A character that a line may have at all. -/
def isLegible (c : Char) : Bool :=
  c == '\t' || !Text.isControl c

/-
  The symbols that do not open or close anything. The only
  comparison among what they make up is that of equality.
-/
def symbols : List Char :=
  [',', '=', '+', '-', '*', '/', '%', '&', '|', '^', '@']

/- Read a character where nothing has begun. -/
def begin
    (depth : Nat)
    (c : Char) : Option (List Placed × State) :=
  if c.isDigit then
    some ([], ⟨depth, .number⟩)
  else if Text.isNameStart c then
    some ([], ⟨depth, .name [c]⟩)
  else if isQuote c then
    some ([], ⟨depth, .text c⟩)
  else if isRoom c then
    some ([], ⟨depth, .blank⟩)
  else if c == '#' then
    some ([], ⟨depth, .comment⟩)
  else if c == '.' then
    some ([⟨depth, .symbol c⟩], ⟨depth, .point⟩)
  else if c == ':' then
    some ([⟨depth, .symbol c⟩], ⟨depth, .colon⟩)
  else if c == '(' || c == '[' || c == '\x7b' then
    some ([⟨depth, .symbol c⟩], ⟨depth + 1, .blank⟩)
  else if c == ')' || c == ']' || c == '\x7d' then
    match depth with
    | 0 => none
    | outer + 1 =>
        some ([⟨outer, .symbol c⟩], ⟨outer, .blank⟩)
  else if symbols.contains c then
    some ([⟨depth, .symbol c⟩], ⟨depth, .blank⟩)
  else
    none

/- Read a character behind a token that it ends. -/
def beginBehind
    (depth : Nat)
    (token : Token)
    (c : Char) : Option (List Placed × State) :=
  (begin depth c).map fun (tokens, next) =>
    (⟨depth, token⟩ :: tokens, next)

/-
  Read a character that a line may have. A text with a letter
  in front of it is understood if that letter is `f`. A second
  text must not follow a text at once, so that no mark is ever
  threefold. Numbers have digits and points only.
-/
def stepLegible
    (depth : Nat)
    (c : Char) : Mode → Option (List Placed × State)
  | .blank => begin depth c
  | .name letters =>
      if Text.isNamePart c then
        some ([], ⟨depth, .name (letters ++ [c])⟩)
      else if isQuote c then
        if letters = ['f'] then
          some ([], ⟨depth, .text c⟩)
        else
          none
      else
        beginBehind depth (.name letters) c
  | .member =>
      if Text.isNamePart c then
        some ([], ⟨depth, .member⟩)
      else if isQuote c then
        none
      else
        beginBehind depth .member c
  | .number =>
      if c.isDigit || c == '.' then
        some ([], ⟨depth, .number⟩)
      else if Text.isNamePart c || isQuote c then
        none
      else
        beginBehind depth .number c
  | .text mark =>
      if c == mark then
        some ([], ⟨depth, .shut⟩)
      else if c == '\\' then
        some ([], ⟨depth, .escaped mark⟩)
      else
        some ([], ⟨depth, .text mark⟩)
  | .escaped mark => some ([], ⟨depth, .text mark⟩)
  | .shut =>
      if isQuote c then none else beginBehind depth .text c
  | .point =>
      if isRoom c then
        some ([], ⟨depth, .point⟩)
      else if Text.isNameStart c then
        some ([], ⟨depth, .member⟩)
      else
        begin depth c
  | .colon => if c == '=' then none else begin depth c
  | .comment => some ([], ⟨depth, .comment⟩)

/- Read a character, if a line may have it. -/
def step
    (state : State)
    (c : Char) : Option (List Placed × State) :=
  if isLegible c then
    stepLegible state.depth c state.mode
  else
    none

/- Read characters one after the other. -/
def run
    (state : State) :
    List Char → Option (List Placed × State)
  | [] => some ([], state)
  | c :: rest =>
      match step state c with
      | none => none
      | some (tokens, next) =>
          match run next rest with
          | none => none
          | some (more, last) => some (tokens ++ more, last)

/- The token that is ended by the end of a line. -/
def ended : Mode → Option (List Token)
  | .blank | .point | .colon | .comment => some []
  | .name letters => some [.name letters]
  | .member => some [.member]
  | .number => some [.number]
  | .shut => some [.text]
  | .text _ | .escaped _ => none

/-
  The tokens of a line that begins in some brackets, and the
  brackets that are open at its end.
-/
def lineTokens?
    (depth : Nat)
    (line : List Char) : Option (List Placed × Nat) :=
  match run ⟨depth, .blank⟩ line with
  | none => none
  | some (tokens, last) =>
      (ended last.mode).map fun more =>
        (tokens ++ placedAt last.depth more, last.depth)

------------------------------------------------------------
-- Moves
------------------------------------------------------------

/- Reading a text gives tokens and leads to another state. -/
def Moves
    (state : State)
    (text : String)
    (tokens : List Placed)
    (next : State) : Prop :=
  run state text.toList = some (tokens, next)

variable {state middle next : State}
variable {tokens more : List Placed}

/- Reading reads a character, and then the others. -/
theorem run_cons_eq_some_iff
    {c : Char}
    {rest : List Char} :
    run state (c :: rest) = some (tokens, next) ↔
      ∃ begun middle more,
        step state c = some (begun, middle) ∧
          run middle rest = some (more, next) ∧
          tokens = begun ++ more := by
  rw [run]
  cases hStep : step state c with
  | none => simp
  | some moved =>
      rcases moved with ⟨begun, middle⟩
      cases hRest : run middle rest with
      | none => simp [hRest]
      | some last =>
          rcases last with ⟨more, last⟩
          simp only [hRest, Option.some.injEq, Prod.mk.injEq]
          constructor
          · rintro ⟨rfl, rfl⟩
            exact ⟨begun, middle, more, ⟨rfl, rfl⟩, by simp [hRest]⟩
          · rintro ⟨_, _, _, ⟨rfl, rfl⟩, hRun, rfl⟩
            rw [hRest, Option.some.injEq, Prod.mk.injEq] at hRun
            exact ⟨by rw [hRun.1], hRun.2⟩

/- Reading goes on where it was left. -/
theorem run_append
    {first second : List Char}
    (hFirst : run state first = some (tokens, middle))
    (hSecond : run middle second = some (more, next)) :
    run state (first ++ second) =
      some (tokens ++ more, next) := by
  induction first generalizing state tokens with
  | nil =>
      simp only [run, Option.some.injEq, Prod.mk.injEq] at hFirst
      rcases hFirst with ⟨rfl, rfl⟩
      exact hSecond
  | cons c first ih =>
      rcases run_cons_eq_some_iff.mp hFirst with
        ⟨begun, between, rest, hStep, hRest, rfl⟩
      rw [List.cons_append, List.append_assoc]
      exact run_cons_eq_some_iff.mpr
        ⟨begun, between, _, hStep, ih hRest, rfl⟩

/- Two texts are read one after the other. -/
theorem Moves.append
    {first second : String}
    (hFirst : Moves state first tokens middle)
    (hSecond : Moves middle second more next) :
    Moves state (first ++ second) (tokens ++ more) next := by
  unfold Moves
  rw [String.toList_append]
  exact run_append hFirst hSecond

/- A text is read as its characters are. -/
theorem Moves.ofList
    {letters : List Char}
    (hRun : run state letters = some (tokens, next)) :
    Moves state (String.ofList letters) tokens next := by
  unfold Moves
  rw [String.toList_ofList]
  exact hRun

/- A line that is read up to its end. -/
theorem lineTokens?_of_moves
    {depth : Nat}
    {line : String}
    (hMoves : Moves ⟨depth, .blank⟩ line tokens next)
    {last : List Token}
    (hEnded : ended next.mode = some last) :
    lineTokens? depth line.toList =
      some (tokens ++ placedAt next.depth last, next.depth) := by
  unfold lineTokens?
  rw [hMoves]
  simp [hEnded]

/- A line whose end does not end a token. -/
theorem lineTokens?_of_done
    {depth : Nat}
    {line : String}
    (hMoves : Moves ⟨depth, .blank⟩ line tokens next)
    (hDone : ended next.mode = some []) :
    lineTokens? depth line.toList =
      some (tokens, next.depth) := by
  rw [lineTokens?_of_moves hMoves hDone, placedAt,
    List.map_nil, List.append_nil]

/- Characters that change nothing can be read in any number. -/
theorem run_eq_self
    {letters : List Char}
    (hStep : ∀ c ∈ letters, step state c = some ([], state)) :
    run state letters = some ([], state) := by
  induction letters with
  | nil => rfl
  | cons c letters ih =>
      rw [List.forall_mem_cons] at hStep
      simp [run, hStep.1, ih hStep.2]

/- Room at the front of a line has no tokens. -/
theorem lineTokens?_room
    {depth : Nat}
    {room : List Char}
    (hRoom : ∀ c ∈ room, isRoom c)
    (line : List Char) :
    lineTokens? depth (room ++ line) =
      lineTokens? depth line := by
  have hRun :
      run ⟨depth, .blank⟩ (room ++ line) =
        run ⟨depth, .blank⟩ line := by
    induction room with
    | nil => rfl
    | cons c room ih =>
        rw [List.forall_mem_cons] at hRoom
        have hStep :
            step ⟨depth, .blank⟩ c =
              some ([], ⟨depth, .blank⟩) := by
          rcases Bool.or_eq_true_iff.mp hRoom.1 with hC | hC
          · rw [beq_iff_eq.mp hC]
            rfl
          · rw [beq_iff_eq.mp hC]
            rfl
        rw [List.cons_append, run, hStep]
        simp only [ih hRoom.2]
        cases run ⟨depth, .blank⟩ line <;> rfl
  rw [lineTokens?, hRun, ← lineTokens?]

------------------------------------------------------------
-- Tokens That Are Ended
------------------------------------------------------------

/- The tokens that are ended by a comma or a closing mark. -/
inductive Rests : Mode → List Token → Prop where
  | blank : Rests .blank []
  | name (letters : List Char) :
      Rests (.name letters) [.name letters]
  | number : Rests .number [.number]
  | shut : Rests .shut [.text]

/- The symbols that end what is being read. -/
def enders : List Char :=
  [',', ')', ']', '\x7d', ':']

/- An ending symbol is no part of what it ends. -/
theorem ender_plain :
    ∀ c ∈ enders,
      isLegible c = true ∧ Text.isNamePart c = false ∧
        isQuote c = false ∧
          (c.isDigit || c == '.') = false := by
  intro c hMem
  simp only [enders, List.mem_cons, List.not_mem_nil,
    or_false] at hMem
  rcases hMem with rfl | rfl | rfl | rfl | rfl
  all_goals exact ⟨rfl, rfl, rfl, rfl⟩

/- What an ending symbol ends is the token in front of it. -/
theorem Rests.step
    {mode : Mode}
    {last : List Token}
    (hRests : Rests mode last)
    {depth : Nat}
    {c : Char}
    (hEnder : c ∈ enders)
    (hStep :
      Lexis.step ⟨depth, .blank⟩ c = some (tokens, next)) :
    Lexis.step ⟨depth, mode⟩ c =
      some (placedAt depth last ++ tokens, next) := by
  rcases ender_plain c hEnder with
    ⟨hLegible, hPart, hQuote, hNumber⟩
  have hBegin : begin depth c = some (tokens, next) := by
    rw [Lexis.step, if_pos hLegible] at hStep
    exact hStep
  rw [Lexis.step, if_pos hLegible]
  cases hRests with
  | blank => exact hBegin
  | name letters =>
      simp [stepLegible, hPart, hQuote, beginBehind, hBegin,
        placedAt]
  | number =>
      rw [stepLegible, hNumber, hPart, hQuote]
      simp [beginBehind, hBegin, placedAt]
  | shut =>
      simp [stepLegible, hQuote, beginBehind, hBegin, placedAt]

/- A text behind what rests is read as if nothing had begun. -/
theorem Rests.run
    {mode : Mode}
    {last : List Token}
    (hRests : Rests mode last)
    {depth : Nat}
    {c : Char}
    {letters : List Char}
    (hEnder : c ∈ enders)
    (hRun :
      Lexis.run ⟨depth, .blank⟩ (c :: letters) =
        some (tokens, next)) :
    Lexis.run ⟨depth, mode⟩ (c :: letters) =
      some (placedAt depth last ++ tokens, next) := by
  rcases run_cons_eq_some_iff.mp hRun with
    ⟨begun, middle, more, hStep, hMore, rfl⟩
  exact run_cons_eq_some_iff.mpr
    ⟨_, middle, more, hRests.step hEnder hStep, hMore,
      (List.append_assoc _ _ _).symm⟩

------------------------------------------------------------
-- Legible Characters
------------------------------------------------------------

/- A character that is read is legible. -/
theorem isLegible_of_step
    {c : Char}
    {moved : List Placed × State}
    (hStep : step state c = some moved) :
    isLegible c := by
  unfold step at hStep
  split at hStep
  · assumption
  · simp at hStep

/- What can be read has no control characters but tabs. -/
theorem isLegible_of_run
    {letters : List Char}
    (hRun : run state letters = some (tokens, next)) :
    ∀ c ∈ letters, isLegible c := by
  induction letters generalizing state tokens with
  | nil => simp
  | cons c letters ih =>
      rcases run_cons_eq_some_iff.mp hRun with
        ⟨begun, middle, more, hStep, hRest, -⟩
      rw [List.forall_mem_cons]
      exact ⟨isLegible_of_step hStep, ih hRest⟩

/- A line with tokens has no control characters but tabs. -/
theorem isLegible_of_lineTokens?
    {depth : Nat}
    {line : List Char}
    {moved : List Placed × Nat}
    (hTokens : lineTokens? depth line = some moved) :
    ∀ c ∈ line, isLegible c := by
  unfold lineTokens? at hTokens
  split at hTokens
  · simp at hTokens
  · next hRun => exact isLegible_of_run hRun

end Lexis

end PipelineScript
