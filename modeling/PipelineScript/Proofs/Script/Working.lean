import PipelineScript.Proofs.Lexis.Literals
import PipelineScript.Proofs.Lexis.Statements
import PipelineScript.Script.NameTable

/-
  Statements that work on names which the script keeps for
  itself, so that no node has one of them.

  Key definitions include:
    * `Lexis.isOrdinary`
    * `Lexis.Uses`
    * `Lexis.Works`
    * `Lexis.Closes`

  Key theorems include:
    * `Lexis.works_of_isWorking`
    * `Lexis.works_around`
    * `Lexis.isWorkingText_assignment`
    * `Lexis.closes_of_isKnown`
-/

namespace PipelineScript

namespace Lexis

------------------------------------------------------------
-- Spelling
------------------------------------------------------------

/- Names, and the letters of each. -/
inductive Spells : List String → List (List Char) → Prop where
  | nil : Spells [] []
  | cons {letters : List Char} {names : List String}
      {others : List (List Char)}
      (hRest : Spells names others) :
      Spells (String.ofList letters :: names) (letters :: others)

/- Letters that spell one of the names are in the list. -/
theorem Spells.mem_iff
    {names : List String}
    {spelled : List (List Char)}
    (hSpells : Spells names spelled)
    (letters : List Char) :
    String.ofList letters ∈ names ↔ letters ∈ spelled := by
  induction hSpells with
  | nil => simp
  | cons _ ih =>
      rw [List.mem_cons, List.mem_cons, ih, String.ofList_inj]

/- The letters of names are their characters. -/
theorem Spells.map_toList
    {names : List String}
    {spelled : List (List Char)}
    (hSpells : Spells names spelled) :
    names.map String.toList = spelled := by
  induction hSpells with
  | nil => rfl
  | cons _ ih =>
      rw [List.map_cons, String.toList_ofList, ih]

/- The letters of the names that the script keeps. -/
def reservedSpelling :
    { spelled : List (List Char) //
      Spells reservedNames spelled } :=
  ⟨_, by
    unfold reservedNames
    repeat apply Spells.cons
    exact Spells.nil⟩

/- The letters of the words that open a scope. -/
def scopeSpelling :
    { spelled : List (List Char) // Spells scopeWords spelled } :=
  ⟨_, by
    unfold scopeWords
    repeat apply Spells.cons
    exact Spells.nil⟩

------------------------------------------------------------
-- Using and Binding Names
------------------------------------------------------------

/-
  A name that the script keeps for itself or that no node can
  have, and that does not open a scope.
-/
def isOrdinary (letters : List Char) : Bool :=
  (!letters.contains '_' || reservedSpelling.1.contains letters)
    && !scopeSpelling.1.contains letters

/- A token that is no name, or a known or ordinary one. -/
def IsKnown
    (known : List (List Char))
    (placed : Placed) : Prop :=
  ∀ letters,
    placed.token = .name letters →
      letters ∈ known ∨ isOrdinary letters

/- A statement of ordinary names and of the known ones. -/
structure Uses
    (known : List (List Char))
    (tokens : List Placed) : Prop where
  direct : isDirect tokens
  isKnown : ∀ placed ∈ tokens, IsKnown known placed

/- A statement that binds names which the script keeps. -/
structure Works
    (known : List (List Char))
    (tokens : List Placed) : Prop where
  uses : Uses known tokens
  bound :
    ∀ letters ∈ boundLetters tokens,
      letters ∈ reservedSpelling.1

/- A statement that binds a name of its own, and no other. -/
structure Closes
    (own : List Char)
    (known : List (List Char))
    (tokens : List Placed) : Prop where
  uses : Uses (own :: known) tokens
  bound : boundLetters tokens = [own]

variable {known : List (List Char)}
variable {tokens first last inner : List Placed}

/- A statement of names that open no scope is simple. -/
theorem Uses.isSimple
    (hUses : Uses known tokens)
    (hKnown : ∀ letters ∈ known, letters ∉ scopeSpelling.1) :
    isSimple tokens := by
  unfold Lexis.isSimple
  rw [Bool.and_eq_true]
  refine ⟨?_, hUses.direct⟩
  rw [List.all_eq_true]
  intro name hName
  rcases List.mem_map.mp hName with ⟨letters, hMem, rfl⟩
  rcases mem_lettersOf_iff.mp hMem with
    ⟨placed, hPlaced, hToken⟩
  have hNew : letters ∉ scopeSpelling.1 := by
    rcases hUses.isKnown placed hPlaced letters hToken with
      hOld | hOrdinary
    · exact hKnown letters hOld
    · simp only [isOrdinary, Bool.and_eq_true,
        Bool.not_eq_true', List.contains_eq_mem,
        decide_eq_false_iff_not] at hOrdinary
      exact hOrdinary.2
  simpa [scopeSpelling.2.mem_iff] using hNew

/- More names can be known. -/
theorem Uses.mono
    {more : List (List Char)}
    (hUses : Uses known tokens)
    (hMore : ∀ letters ∈ known, letters ∈ more) :
    Uses more tokens where
  direct := hUses.direct
  isKnown := by
    intro placed hPlaced letters hToken
    rcases hUses.isKnown placed hPlaced letters hToken with
      hKnown | hOrdinary
    · exact Or.inl (hMore letters hKnown)
    · exact Or.inr hOrdinary

/- Quiet tokens have no names but words for values. -/
theorem IsQuiet.isKnown
    {depth : Nat}
    (hQuiet : IsQuiet depth tokens) :
    ∀ placed ∈ tokens,
      depth ≤ placed.depth ∧ IsKnown known placed := by
  have hConstants :
      ∀ letters ∈ constants, isOrdinary letters := by
    decide
  intro placed hPlaced
  have hInside := hQuiet placed hPlaced
  refine ⟨hInside.1, ?_⟩
  intro letters hToken
  exact Or.inr (hConstants letters (hInside.2 letters hToken))

------------------------------------------------------------
-- Statements with Ordinary Names
------------------------------------------------------------

/- The check that all names are ordinary. -/
def areOrdinary (tokens : List Placed) : Bool :=
  (lettersOf tokens).all isOrdinary

/- Tokens that pass the check are known. -/
theorem isKnown_of_areOrdinary
    (hCheck : areOrdinary tokens) :
    ∀ placed ∈ tokens, IsKnown known placed := by
  intro placed hPlaced letters hToken
  have hMem : letters ∈ lettersOf tokens :=
    mem_lettersOf_iff.mpr ⟨placed, hPlaced, hToken⟩
  exact Or.inr (List.all_eq_true.mp hCheck letters hMem)

/- The check that a statement has ordinary names only. -/
def isWorking (tokens : List Placed) : Bool :=
  isDirect tokens
    && areOrdinary tokens
    && (boundLetters tokens).all reservedSpelling.1.contains

/- What passes the check works on names of its own. -/
theorem works_of_isWorking
    (hCheck : isWorking tokens) :
    Works known tokens := by
  simp only [isWorking, Bool.and_eq_true] at hCheck
  refine ⟨⟨hCheck.1.1, isKnown_of_areOrdinary hCheck.1.2⟩, ?_⟩
  intro letters hMem
  exact List.contains_iff_mem.mp
    (List.all_eq_true.mp hCheck.2 letters hMem)

------------------------------------------------------------
-- Statements Around Brackets
------------------------------------------------------------

/- Tokens in brackets are none of the outer ones. -/
theorem outer_around
    (hInner : ∀ placed ∈ inner, 1 ≤ placed.depth) :
    outer (first ++ inner ++ last) = outer (first ++ last) := by
  have hNone : inner.filter (·.depth == 0) = [] := by
    rw [List.filter_eq_nil_iff]
    intro placed hPlaced
    have hDeep := hInner placed hPlaced
    simp
    omega
  simp [outer, hNone]

/- Nothing in brackets is given a value. -/
theorem aims_around
    (hInner : ∀ placed ∈ inner, 1 ≤ placed.depth) :
    aims (first ++ inner ++ last) = aims (first ++ last) := by
  unfold aims
  rw [outer_around hInner]

/- What stands in brackets binds nothing. -/
theorem boundLetters_around
    (hInner : ∀ placed ∈ inner, 1 ≤ placed.depth) :
    boundLetters (first ++ inner ++ last) =
      boundLetters (first ++ last) := by
  unfold boundLetters
  rw [aims_around hInner]

/- What stands in brackets may use the known names. -/
theorem uses_around
    (hInner :
      ∀ placed ∈ inner,
        1 ≤ placed.depth ∧ IsKnown known placed)
    (hAround : Uses known (first ++ last)) :
    Uses known (first ++ inner ++ last) where
  direct := by
    have hDeep : ∀ placed ∈ inner, 1 ≤ placed.depth :=
      fun placed hPlaced => (hInner placed hPlaced).1
    rw [isDirect, outer_around hDeep, aims_around hDeep]
    exact hAround.direct
  isKnown := by
    have hKnown := hAround.isKnown
    simp only [List.forall_mem_append] at hKnown ⊢
    exact ⟨⟨hKnown.1, fun placed hPlaced =>
      (hInner placed hPlaced).2⟩, hKnown.2⟩

/- A statement works if it does without what is in brackets. -/
theorem works_around
    (hInner :
      ∀ placed ∈ inner,
        1 ≤ placed.depth ∧ IsKnown known placed)
    (hAround : isWorking (first ++ last)) :
    Works known (first ++ inner ++ last) := by
  have hWorks : Works known (first ++ last) :=
    works_of_isWorking hAround
  refine ⟨uses_around hInner hWorks.uses, ?_⟩
  rw [boundLetters_around fun placed hPlaced =>
    (hInner placed hPlaced).1]
  exact hWorks.bound

------------------------------------------------------------
-- Assignments
------------------------------------------------------------

/- Without the sign of an assignment there are no targets. -/
theorem targets_eq_nil
    {statement : List Token}
    (hNone : Token.symbol '=' ∉ statement) :
    targets statement = [] := by
  induction statement with
  | nil => rfl
  | cons token rest ih =>
      rw [List.mem_cons, not_or] at hNone
      have hSign : isAssigned token rest = false := by
        unfold isAssigned
        split
        · simp at hNone
        · rfl
      rw [targets, ih hNone.2, hSign]
      rfl

/- A name with one sign behind it is the only target. -/
theorem targets_assignment
    {target : List Char}
    {value : List Token}
    (hValue : Token.symbol '=' ∉ value) :
    targets (.name target :: .symbol '=' :: value) =
      [.name target] := by
  have hHead : value.head? ≠ some (.symbol '=') := fun hHead =>
    hValue (List.mem_of_head? hHead)
  have hSign : isAssigned (.symbol '=') value = false := by
    unfold isAssigned
    split <;> rfl
  have hNone : targets (.symbol '=' :: value) = [] := by
    rw [targets, targets_eq_nil hValue, hSign]
    rfl
  have hTarget :
      isAssigned (.name target) (.symbol '=' :: value) =
        true := by
    simp [isAssigned, hHead]
  rw [targets, hNone, hTarget]
  rfl

/- The outer tokens of an assignment. -/
theorem outer_assignment
    (target : List Char)
    (value : List Placed) :
    outer (⟨0, .name target⟩ :: ⟨0, .symbol '='⟩ :: value) =
      .name target :: .symbol '=' :: outer value := by
  simp [outer]

/- A name with one sign behind it is given a value. -/
theorem aims_assignment
    {target : List Char}
    {value : List Placed}
    (hLoop : target ≠ ['f', 'o', 'r'])
    (hValue : Token.symbol '=' ∉ outer value) :
    aims (⟨0, .name target⟩ :: ⟨0, .symbol '='⟩ :: value) =
      [.name target] := by
  unfold aims
  rw [outer_assignment]
  split
  · next hHead =>
      simp only [List.cons.injEq, Token.name.injEq] at hHead
      exact absurd hHead.1 hLoop
  · exact targets_assignment hValue

/- A name with one sign behind it is what is bound. -/
theorem boundLetters_assignment
    {target : List Char}
    {value : List Placed}
    (hLoop : target ≠ ['f', 'o', 'r'])
    (hValue : Token.symbol '=' ∉ outer value) :
    boundLetters
        (⟨0, .name target⟩ :: ⟨0, .symbol '='⟩ :: value) =
      [target] := by
  unfold boundLetters
  rw [aims_assignment hLoop hValue]
  rfl

/- The outer tokens behind a sign do not end a statement. -/
theorem uses_assignment
    {target : List Char}
    {value : List Placed}
    (hLoop : target ≠ ['f', 'o', 'r'])
    (hTarget : IsKnown known ⟨0, .name target⟩)
    (hValue : Token.symbol '=' ∉ outer value)
    (hPlain : Token.symbol ':' ∉ outer value)
    (hKnown : ∀ placed ∈ value, IsKnown known placed) :
    Uses known
      (⟨0, .name target⟩ :: ⟨0, .symbol '='⟩ :: value) where
  direct := by
    rw [isDirect, aims_assignment hLoop hValue,
      outer_assignment, Bool.and_eq_true, Bool.not_eq_true',
      ← Bool.not_eq_true, List.contains_iff_mem]
    refine ⟨?_, rfl⟩
    intro hMem
    have hOuter := List.dropLast_subset _ hMem
    simp only [List.mem_cons, reduceCtorEq, Token.symbol.injEq,
      Char.reduceEq, false_or] at hOuter
    exact hPlain hOuter
  isKnown := by
    rw [List.forall_mem_cons, List.forall_mem_cons]
    exact ⟨hTarget, by simp [IsKnown], hKnown⟩

/- A name of its own is given a value, and nothing else is. -/
theorem closes_of_isKnown
    {own : List Char}
    {value : List Placed}
    (hLoop : own ≠ ['f', 'o', 'r'])
    (hValue : Token.symbol '=' ∉ outer value)
    (hPlain : Token.symbol ':' ∉ outer value)
    (hKnown :
      ∀ placed ∈ value, IsKnown (own :: known) placed) :
    Closes own known
      (⟨0, .name own⟩ :: ⟨0, .symbol '='⟩ :: value) where
  uses := by
    refine uses_assignment hLoop ?_ hValue hPlain hKnown
    rintro letters hToken
    rw [Token.name.injEq] at hToken
    exact Or.inl (hToken ▸ List.mem_cons_self)
  bound := boundLetters_assignment hLoop hValue

------------------------------------------------------------
-- Texts That Work
------------------------------------------------------------

/- A text whose tokens, if it has any, are a statement. -/
def IsWorkingText
    (known : List (List Char))
    (text : String) : Prop :=
  ∃ tokens, lineTokens? 0 text.toList = some (tokens, 0) ∧
    (tokens ≠ [] → Works known tokens)

/- The check that a line works with ordinary names only. -/
def isWorkingLine (line : List Char) : Bool :=
  match lineTokens? 0 line with
  | some (tokens, 0) => tokens.isEmpty || isWorking tokens
  | _ => false

/- A text that is put together from literals, and its letters. -/
inductive IsSpelled : String → List Char → Prop where
  | literal (letters : List Char) :
      IsSpelled (String.ofList letters) letters
  | append {first second : String} {letters more : List Char}
      (hFirst : IsSpelled first letters)
      (hSecond : IsSpelled second more) :
      IsSpelled (first ++ second) (letters ++ more)

/- The letters of a text are its characters. -/
theorem IsSpelled.toList_eq
    {text : String}
    {letters : List Char}
    (hSpelled : IsSpelled text letters) :
    text.toList = letters := by
  induction hSpelled with
  | literal letters => exact String.toList_ofList
  | append _ _ ihFirst ihSecond =>
      rw [String.toList_append, ihFirst, ihSecond]

/- A text that passes the check works. -/
theorem isWorkingText_of_isSpelled
    {text : String}
    {line : List Char}
    (hText : IsSpelled text line)
    (hCheck : isWorkingLine line) :
    IsWorkingText known text := by
  unfold isWorkingLine at hCheck
  split at hCheck
  · next tokens hTokens =>
      rw [← hText.toList_eq] at hTokens
      refine ⟨tokens, hTokens, ?_⟩
      intro hSome
      rcases Bool.or_eq_true_iff.mp hCheck with hEmpty | hWorking
      · exact absurd (List.isEmpty_iff.mp hEmpty) hSome
      · exact works_of_isWorking hWorking
  · simp at hCheck

/- A literal that passes the check works. -/
theorem isWorkingText_literal
    {line : List Char}
    (hCheck : isWorkingLine line) :
    IsWorkingText known (String.ofList line) :=
  isWorkingText_of_isSpelled (.literal line) hCheck

/- A text that is read as a comment works, as it does nothing. -/
theorem isWorkingText_comment
    {mark : List Char}
    {text : String}
    (hMark :
      run ⟨0, .blank⟩ mark = some ([], ⟨0, .comment⟩))
    (hText : ∀ c ∈ text.toList, isLegible c) :
    IsWorkingText known (String.ofList mark ++ text) := by
  have hMoves :
      Moves ⟨0, .blank⟩ (String.ofList mark ++ text) []
        ⟨0, .comment⟩ :=
    (Moves.ofList hMark).append (moves_comment hText)
  exact ⟨[], lineTokens?_of_done hMoves rfl,
    fun hSome => absurd rfl hSome⟩

/- A value without others in it has no signs around it. -/
theorem IsScalar.plain
    {value : List Token}
    (hScalar : IsScalar value) :
    Token.symbol '=' ∉ value ∧ Token.symbol ':' ∉ value := by
  cases hScalar with
  | text => decide
  | number => decide
  | negative => decide
  | constant hConstant => simp

/- Tokens in no brackets are all outer tokens. -/
theorem outer_placedAt (value : List Token) :
    outer (placedAt 0 value) = value := by
  have hAll :
      (placedAt 0 value).filter (·.depth == 0) =
        placedAt 0 value := by
    rw [List.filter_eq_self]
    simp [placedAt]
  rw [outer, hAll, placedAt, List.map_map]
  exact List.map_id _

/- A value is given to a name that the script keeps. -/
theorem isWorkingText_assignment
    {target line : List Char}
    {value : String}
    (hLine :
      run ⟨0, .blank⟩ line =
        some (placedAt 0 [.name target, .symbol '='],
          ⟨0, .blank⟩))
    (hTarget :
      isOrdinary target && reservedSpelling.1.contains target)
    (hValue : IsScalarText value) :
    IsWorkingText known (String.ofList line ++ value) := by
  rw [Bool.and_eq_true] at hTarget
  rcases hValue with ⟨tokens, hScalar, hFills⟩
  have hLoop : target ≠ ['f', 'o', 'r'] := by
    rintro rfl
    exact absurd hTarget.2 (by decide)
  have hQuiet : IsQuiet 0 (placedAt 0 tokens) :=
    hScalar.isQuiet 0
  have hTokens :
      lineTokens? 0 (String.ofList line ++ value).toList =
        some
          (⟨0, .name target⟩ :: ⟨0, .symbol '='⟩ ::
            placedAt 0 tokens, 0) :=
    ((hFills 0).behind (.ofList hLine)).lineTokens?
  refine ⟨_, hTokens, fun _ => ⟨?_, ?_⟩⟩
  · apply uses_assignment hLoop
    · intro letters hToken
      rw [Token.name.injEq] at hToken
      exact Or.inr (hToken ▸ hTarget.1)
    · rw [outer_placedAt]
      exact hScalar.plain.1
    · rw [outer_placedAt]
      exact hScalar.plain.2
    · intro placed hPlaced
      exact (hQuiet.isKnown placed hPlaced).2
  · rw [boundLetters_assignment hLoop, List.forall_mem_singleton]
    · exact List.contains_iff_mem.mp hTarget.2
    · rw [outer_placedAt]
      exact hScalar.plain.1

/- Texts that work are lines that make up working statements. -/
theorem yields_of_isWorkingText
    {texts : List String}
    (hTexts : ∀ text ∈ texts, IsWorkingText known text) :
    Yields (Works known) texts := by
  apply yields_of_forall
  intro text hText
  rcases hTexts text hText with ⟨tokens, hTokens, hWorks⟩
  exact yields_line hTokens hWorks

/- The check that lines work with ordinary names only. -/
def areWorkingLines (lines : List (List Char)) : Bool :=
  match gather none lines with
  | some statements =>
      statements.all fun s => isWorking s.tokens
  | none => false

/- Lines that pass the check work. -/
theorem yields_of_spells
    {texts : List String}
    {lines : List (List Char)}
    (hTexts : Spells texts lines)
    (hCheck : areWorkingLines lines) :
    Yields (Works known) texts := by
  unfold areWorkingLines at hCheck
  split at hCheck
  · next statements hGather =>
      rw [← hTexts.map_toList] at hGather
      refine ⟨statements, hGather, ?_⟩
      intro statement hStatement
      exact works_of_isWorking
        (List.all_eq_true.mp hCheck statement hStatement)
  · simp at hCheck

------------------------------------------------------------
-- Blocks That Close
------------------------------------------------------------

/-
  Lines of statements that work, but for the last of them: it
  stands at the margin and binds a name of its own.
-/
def IsClosed
    (own : List Char)
    (known : List (List Char))
    (lines : List String) : Prop :=
  ∃ first last,
    gather none (lines.map String.toList) =
        some (first ++ [last]) ∧
      (∀ statement ∈ first, Works known statement.tokens) ∧
      last.indent = 0 ∧
      Closes own known last.tokens

/- Lines that work in front of a last statement. -/
theorem isClosed_append
    {own : List Char}
    {lines closing : List String}
    {statement : Statement}
    (hLines : Yields (Works known) lines)
    (hClosing :
      gather none (closing.map String.toList) =
        some [statement])
    (hIndent : statement.indent = 0)
    (hCloses : Closes own known statement.tokens) :
    IsClosed own known (lines ++ closing) := by
  rcases hLines with ⟨statements, hStatements, hWorks⟩
  refine ⟨statements, statement, ?_, hWorks, hIndent, hCloses⟩
  rw [List.map_append]
  exact gather_append hStatements hClosing

end Lexis

end PipelineScript
