import PipelineScript.Proofs.Lexis.Tokens
import PipelineScript.Script.Literal

/-
  What literals and comments are to a reader of the script:
  whatever they are made from, they stay in their place.

  Key definitions include:
    * `Lexis.Fills`
    * `Lexis.IsScalar`

  Key theorems include:
    * `Lexis.moves_text`
    * `Lexis.isLegible_of_mem_comment`
    * `Lexis.isQuietText_value`
    * `Lexis.isQuietText_tuple`
-/

namespace PipelineScript

namespace Lexis

------------------------------------------------------------
-- Characters
------------------------------------------------------------

/- Letters by their numbers. -/
theorem isAlpha_iff {c : Char} :
    c.isAlpha ↔
      (0x41 ≤ c.toNat ∧ c.toNat ≤ 0x5A) ∨
        (0x61 ≤ c.toNat ∧ c.toNat ≤ 0x7A) := by
  have hAlpha :
      c.isAlpha =
        (decide ('A'.val ≤ c.val ∧ c.val ≤ 'Z'.val) ||
          (decide ('a'.val ≤ c.val) && decide (c.val ≤ 'z'.val))) :=
    rfl
  rw [hAlpha, Bool.or_eq_true, Bool.and_eq_true,
    decide_eq_true_eq, decide_eq_true_eq, decide_eq_true_eq]
  rfl

/- Digits by their numbers. -/
theorem isDigit_iff {c : Char} :
    c.isDigit ↔ 0x30 ≤ c.toNat ∧ c.toNat ≤ 0x39 := by
  have hDigit :
      c.isDigit =
        (decide ('0'.val ≤ c.val) && decide (c.val ≤ '9'.val)) :=
    rfl
  rw [hDigit, Bool.and_eq_true, decide_eq_true_eq,
    decide_eq_true_eq]
  rfl

/- The characters of names are legible. -/
theorem isLegible_of_isNamePart
    {c : Char}
    (hPart : Text.isNamePart c) :
    isLegible c := by
  unfold Text.isNamePart at hPart
  rcases Bool.or_eq_true_iff.mp hPart with hAlpha | hLine
  · have hVisible : 0x20 ≤ c.toNat ∧ c.toNat < 0x7F := by
      rw [Char.isAlphanum, Bool.or_eq_true, isAlpha_iff,
        isDigit_iff] at hAlpha
      omega
    simp only [isLegible, Text.isControl, Bool.or_eq_true,
      Bool.not_eq_true', Bool.or_eq_false_iff,
      Bool.and_eq_false_iff, decide_eq_false_iff_not]
    omega
  · rw [beq_iff_eq.mp hLine]
    rfl

/- Digits can stand in names. -/
theorem isNamePart_of_isDigit
    {c : Char}
    (hDigit : c.isDigit) :
    Text.isNamePart c := by
  simp [Text.isNamePart, Char.isAlphanum, hDigit]

/- What can begin a name can stand in it. -/
theorem isNamePart_of_isNameStart
    {c : Char}
    (hStart : Text.isNameStart c) :
    Text.isNamePart c := by
  rcases Bool.or_eq_true_iff.mp hStart with hAlpha | hLine
  · simp [Text.isNamePart, Char.isAlphanum, hAlpha]
  · simp [Text.isNamePart, hLine]

/- A digit cannot begin a name. -/
theorem isDigit_of_isNameStart
    {c : Char}
    (hStart : Text.isNameStart c) :
    c.isDigit = false := by
  rcases Bool.or_eq_true_iff.mp hStart with hAlpha | hLine
  · rw [← Bool.not_eq_true, isDigit_iff]
    rw [isAlpha_iff] at hAlpha
    omega
  · rw [beq_iff_eq.mp hLine]
    rfl

/- A control character is one of the first. -/
theorem toNat_lt_of_isControl
    {c : Char}
    (hControl : Text.isControl c) :
    c.toNat < 160 := by
  simp only [Text.isControl, Bool.or_eq_true,
    Bool.and_eq_true, decide_eq_true_eq] at hControl
  omega

/- What escapes consist of, other than their first mark. -/
def isEscapePart (c : Char) : Bool :=
  isLegible c && c != '\'' && c != '\\'

/- Control characters are escaped with plain characters. -/
theorem isEscapePart_of_mem_hexPair :
    ∀ n < 160, (Text.hexPair n).all isEscapePart := by
  decide +kernel

/- An escape is a mark with plain characters behind it. -/
theorem exists_escapedControl
    {c : Char}
    (hControl : Text.isControl c) :
    ∃ kind rest,
      Literal.escapedControl c = '\\' :: kind :: rest ∧
        (kind :: rest).all isEscapePart := by
  unfold Literal.escapedControl
  split
  · exact ⟨'n', [], rfl, rfl⟩
  split
  · exact ⟨'r', [], rfl, rfl⟩
  split
  · exact ⟨'t', [], rfl, rfl⟩
  · refine ⟨'x', Text.hexPair c.toNat, rfl, ?_⟩
    rw [List.all_cons, Bool.and_eq_true]
    exact ⟨rfl, isEscapePart_of_mem_hexPair _
      (toNat_lt_of_isControl hControl)⟩

------------------------------------------------------------
-- Names
------------------------------------------------------------

/- Parts of a name go on with it. -/
theorem run_nameParts
    {depth : Nat}
    {rest : List Char}
    (hRest : rest.all Text.isNamePart)
    (letters : List Char) :
    run ⟨depth, .name letters⟩ rest =
      some ([], ⟨depth, .name (letters ++ rest)⟩) := by
  induction rest generalizing letters with
  | nil => simp [run]
  | cons c rest ih =>
      rw [List.all_cons, Bool.and_eq_true] at hRest
      have hStep :
          step ⟨depth, .name letters⟩ c =
            some ([], ⟨depth, .name (letters ++ [c])⟩) := by
        rw [step, if_pos (isLegible_of_isNamePart hRest.1)]
        simp [stepLegible, hRest.1]
      refine run_cons_eq_some_iff.mpr
        ⟨[], _, [], hStep, ?_, rfl⟩
      simpa using ih hRest.2 (letters ++ [c])

/- A name is read letter by letter. -/
theorem moves_name
    (depth : Nat)
    {name : String}
    (hName : Text.isName name) :
    Moves ⟨depth, .blank⟩ name []
      ⟨depth, .name name.toList⟩ := by
  unfold Moves
  unfold Text.isName at hName
  cases hLetters : name.toList with
  | nil => simp [hLetters] at hName
  | cons first rest =>
      rw [hLetters, Bool.and_eq_true] at hName
      have hStep :
          step ⟨depth, .blank⟩ first =
            some ([], ⟨depth, .name [first]⟩) := by
        rw [step, if_pos (isLegible_of_isNamePart
          (isNamePart_of_isNameStart hName.1))]
        simp [stepLegible, begin, hName.1,
          isDigit_of_isNameStart hName.1]
      exact run_cons_eq_some_iff.mpr
        ⟨[], _, [], hStep, run_nameParts hName.2 [first], rfl⟩

------------------------------------------------------------
-- Comments
------------------------------------------------------------

/- A comment has no control characters but tabs. -/
theorem isLegible_of_mem_comment
    {value : String}
    {c : Char}
    (hMem : c ∈ (Literal.comment value).toList) :
    isLegible c := by
  rw [Literal.comment, String.toList_ofList,
    List.mem_flatMap] at hMem
  rcases hMem with ⟨original, -, hMem⟩
  unfold Literal.commentChar at hMem
  split at hMem
  · next hControl =>
      rw [Bool.and_eq_true] at hControl
      rcases exists_escapedControl hControl.2 with
        ⟨kind, rest, hEscape, hRest⟩
      rw [hEscape, List.mem_cons] at hMem
      rcases hMem with rfl | hMem
      · rfl
      · have hPart := List.all_eq_true.mp hRest c hMem
        simp only [isEscapePart, Bool.and_eq_true] at hPart
        exact hPart.1.1
  · next hPlain =>
      rw [List.mem_singleton.mp hMem]
      by_cases hTab : original = '\t'
      · rw [hTab]
        rfl
      · simpa [isLegible, hTab] using hPlain

/- Legible characters do not end a comment. -/
theorem moves_comment
    {depth : Nat}
    {text : String}
    (hLegible : ∀ c ∈ text.toList, isLegible c) :
    Moves ⟨depth, .comment⟩ text [] ⟨depth, .comment⟩ := by
  apply run_eq_self
  intro c hMem
  rw [step, if_pos (hLegible c hMem)]
  rfl

------------------------------------------------------------
-- Texts
------------------------------------------------------------

/- Plain characters do not end a text. -/
theorem run_text
    {depth : Nat}
    {letters : List Char}
    (hPlain : letters.all isEscapePart) :
    run ⟨depth, .text '\''⟩ letters =
      some ([], ⟨depth, .text '\''⟩) := by
  apply run_eq_self
  intro c hMem
  have hPart := List.all_eq_true.mp hPlain c hMem
  simp only [isEscapePart, Bool.and_eq_true, bne_iff_ne]
    at hPart
  rw [step, if_pos hPart.1.1]
  simp [stepLegible, hPart.1.2, hPart.2]

/- A character of a text, as it is written, does not end it. -/
theorem run_quotedChar
    (depth : Nat)
    (c : Char) :
    run ⟨depth, .text '\''⟩ (Literal.quotedChar c) =
      some ([], ⟨depth, .text '\''⟩) := by
  unfold Literal.quotedChar
  split
  · rfl
  split
  · rfl
  split
  · next hControl =>
      rcases exists_escapedControl hControl with
        ⟨kind, rest, hEscape, hRest⟩
      rw [List.all_cons, Bool.and_eq_true] at hRest
      have hKind : isLegible kind := by
        have hPart := hRest.1
        simp only [isEscapePart, Bool.and_eq_true] at hPart
        exact hPart.1.1
      have hStep :
          step ⟨depth, .escaped '\''⟩ kind =
            some ([], ⟨depth, .text '\''⟩) := by
        rw [step, if_pos hKind]
        rfl
      rw [hEscape]
      exact run_cons_eq_some_iff.mpr ⟨[], _, [], rfl,
        run_cons_eq_some_iff.mpr
          ⟨[], _, [], hStep, run_text hRest.2, rfl⟩, rfl⟩
  · next hMark hQuote hPlain =>
      apply run_text
      simp_all [isEscapePart, isLegible]

/- A text is read as one token, whatever it says. -/
theorem moves_text
    (depth : Nat)
    (value : String) :
    Moves ⟨depth, .blank⟩ (Literal.text value) []
      ⟨depth, .shut⟩ := by
  have hInside :
      run ⟨depth, .text '\''⟩
          (value.toList.flatMap Literal.quotedChar) =
        some ([], ⟨depth, .text '\''⟩) := by
    induction value.toList with
    | nil => rfl
    | cons c rest ih =>
        rw [List.flatMap_cons]
        exact run_append (run_quotedChar depth c) ih
  apply Moves.ofList
  refine run_cons_eq_some_iff.mpr
    ⟨[], ⟨depth, .text '\''⟩, [], rfl, ?_, rfl⟩
  exact run_append hInside rfl

------------------------------------------------------------
-- Numbers
------------------------------------------------------------

/- A digit, with digits and points behind it. -/
def IsNumeral (letters : List Char) : Prop :=
  ∃ first rest, letters = first :: rest ∧ first.isDigit ∧
    ∀ c ∈ rest, c.isDigit ∨ c = '.'

/- More digits and points behind a numeral. -/
theorem IsNumeral.append
    {letters more : List Char}
    (hNumeral : IsNumeral letters)
    (hMore : ∀ c ∈ more, c.isDigit ∨ c = '.') :
    IsNumeral (letters ++ more) := by
  rcases hNumeral with ⟨first, rest, rfl, hFirst, hRest⟩
  refine ⟨first, rest ++ more, rfl, hFirst, ?_⟩
  rw [List.forall_mem_append]
  exact ⟨hRest, hMore⟩

/- All characters of a numeral are digits and points. -/
theorem IsNumeral.forall_mem
    {letters : List Char}
    (hNumeral : IsNumeral letters) :
    ∀ c ∈ letters, c.isDigit ∨ c = '.' := by
  rcases hNumeral with ⟨first, rest, rfl, hFirst, hRest⟩
  rw [List.forall_mem_cons]
  exact ⟨Or.inl hFirst, hRest⟩

/- A natural number is written as a numeral. -/
theorem isNumeral_natText (n : Nat) :
    IsNumeral (Number.natText n) := by
  have hDigits :
      ∀ c ∈ Number.natText n, c.isDigit = true :=
    fun c hMem =>
      Nat.isDigit_of_mem_toDigits (by decide) (by decide) hMem
  cases hText : Number.natText n with
  | nil => exact absurd hText Nat.toDigits_ne_nil
  | cons first rest =>
      rw [hText, List.forall_mem_cons] at hDigits
      exact ⟨first, rest, rfl, hDigits.1,
        fun c hMem => Or.inl (hDigits.2 c hMem)⟩

/- Zeros are digits. -/
theorem forall_mem_zeros (count : Nat) :
    ∀ c ∈ List.replicate count '0', c.isDigit ∨ c = '.' := by
  intro c hMem
  rw [List.eq_of_mem_replicate hMem]
  exact Or.inl rfl

/- A point, and a zero behind it. -/
theorem forall_mem_point :
    ∀ c ∈ ['.', '0'], c.isDigit ∨ c = '.' := by
  rw [List.forall_mem_cons, List.forall_mem_singleton]
  exact ⟨Or.inr rfl, Or.inl rfl⟩

/- Digits around a point are a numeral. -/
theorem isNumeral_positional
    {digits : List Char}
    (hDigits : IsNumeral digits)
    (exponent : Int) :
    IsNumeral (Number.Layout.positional digits exponent) := by
  have hAll := hDigits.forall_mem
  rcases hDigits with ⟨first, rest, rfl, hFirst, hRest⟩
  unfold Number.Layout.positional
  dsimp only
  split
  · refine IsNumeral.append (IsNumeral.append ?_
      (forall_mem_zeros _)) forall_mem_point
    exact ⟨first, rest, rfl, hFirst, hRest⟩
  split
  · next hPoint =>
      -- The point stands behind the first digit or later.
      rcases Nat.exists_eq_succ_of_ne_zero
          (Int.natAbs_ne_zero.mpr (Int.ne_of_gt hPoint)) with
        ⟨count, hCount⟩
      rw [hCount, List.take_succ_cons]
      refine IsNumeral.append ⟨first, _, rfl, hFirst, ?_⟩ ?_
      · intro c hMem
        exact hRest c (List.mem_of_mem_take hMem)
      · rw [List.forall_mem_cons]
        exact ⟨Or.inr rfl, fun c hMem =>
          hAll c (List.mem_of_mem_drop hMem)⟩
  · refine IsNumeral.append (IsNumeral.append ?_
      (forall_mem_zeros _)) hAll
    refine ⟨'0', ['.'], rfl, rfl, ?_⟩
    exact List.forall_mem_singleton.mpr (Or.inr rfl)

/- A magnitude is written as a numeral. -/
theorem isNumeral_magnitude (x : Binary64) :
    IsNumeral (Literal.layout.magnitude x) := by
  have hPositional :
      ∀ point, Literal.layout.isPositional point = true :=
    fun _ => rfl
  unfold Number.Layout.magnitude
  split
  · exact ⟨'0', ['.', '0'], rfl, rfl, forall_mem_point⟩
  · dsimp only
    rw [if_pos (hPositional _)]
    exact isNumeral_positional (isNumeral_natText _) _

/- A numeral is read as one number. -/
theorem run_numeral
    {letters : List Char}
    (hNumeral : IsNumeral letters)
    (depth : Nat) :
    run ⟨depth, .blank⟩ letters =
      some ([], ⟨depth, .number⟩) := by
  rcases hNumeral with ⟨first, rest, rfl, hFirst, hRest⟩
  have hStep :
      step ⟨depth, .blank⟩ first =
        some ([], ⟨depth, .number⟩) := by
    rw [step, if_pos (isLegible_of_isNamePart
      (isNamePart_of_isDigit hFirst))]
    simp [stepLegible, begin, hFirst]
  refine run_cons_eq_some_iff.mpr
    ⟨[], _, [], hStep, run_eq_self ?_, rfl⟩
  intro c hMem
  rcases hRest c hMem with hDigit | rfl
  · have hPart := isNamePart_of_isDigit hDigit
    rw [step, if_pos (isLegible_of_isNamePart hPart)]
    simp [stepLegible, hDigit]
  · rfl

------------------------------------------------------------
-- Literals in Their Place
------------------------------------------------------------

/-
  A text that is read as some tokens where nothing has begun,
  if a symbol follows that ends it.
-/
def Fills
    (depth : Nat)
    (text : String)
    (tokens : List Placed) : Prop :=
  ∃ begun mode last,
    Moves ⟨depth, .blank⟩ text begun ⟨depth, mode⟩ ∧
      Rests mode last ∧
      tokens = begun ++ placedAt depth last

variable {depth : Nat} {text more : String}
variable {tokens others : List Placed} {next : State}

/- A symbol that ends a text, and what is behind the symbol. -/
theorem Fills.moves
    (hFills : Fills depth text tokens)
    {c : Char}
    {letters : List Char}
    (hEnder : c ∈ enders)
    (hRun :
      run ⟨depth, .blank⟩ (c :: letters) =
        some (others, next)) :
    Moves ⟨depth, .blank⟩ (text ++ String.ofList (c :: letters))
      (tokens ++ others) next := by
  rcases hFills with ⟨begun, mode, last, hMoves, hRests, rfl⟩
  rw [List.append_assoc]
  exact hMoves.append (.ofList (hRests.run hEnder hRun))

/- What is read in front of a text comes before its tokens. -/
theorem Fills.behind
    (hFills : Fills depth more others)
    (hMoves : Moves ⟨depth, .blank⟩ text tokens ⟨depth, .blank⟩) :
    Fills depth (text ++ more) (tokens ++ others) := by
  rcases hFills with ⟨begun, mode, last, hMore, hRests, rfl⟩
  exact ⟨_, mode, last, hMoves.append hMore, hRests,
    (List.append_assoc _ _ _).symm⟩

/- The end of a line ends a text as well. -/
theorem Fills.lineTokens?
    (hFills : Fills depth text tokens) :
    Lexis.lineTokens? depth text.toList =
      some (tokens, depth) := by
  rcases hFills with ⟨begun, mode, last, hMoves, hRests, rfl⟩
  apply lineTokens?_of_moves hMoves
  cases hRests <;> rfl

/- The words that stand for values. -/
def constants : List (List Char) :=
  [['F', 'a', 'l', 's', 'e'], ['N', 'o', 'n', 'e'],
    ['T', 'r', 'u', 'e']]

/- The tokens of values that hold no others. -/
inductive IsScalar : List Token → Prop where
  | text : IsScalar [.text]
  | number : IsScalar [.number]
  | negative : IsScalar [.symbol '-', .number]
  | constant {letters : List Char}
      (hConstant : letters ∈ constants) :
      IsScalar [.name letters]

/- A text that is a value without others in it. -/
def IsScalarText (text : String) : Prop :=
  ∃ tokens, IsScalar tokens ∧
    ∀ depth, Fills depth text (placedAt depth tokens)

/- A quoted text is one value. -/
theorem isScalarText_text (value : String) :
    IsScalarText (Literal.text value) := by
  refine ⟨[.text], .text, ?_⟩
  intro depth
  exact ⟨[], .shut, [.text], moves_text depth value, .shut, rfl⟩

/- A numeral is one value, with a sign or without. -/
theorem isScalarText_numeral
    {letters : List Char}
    (hNumeral : IsNumeral letters)
    (negative : Bool) :
    IsScalarText
      (String.ofList
        (if negative then '-' :: letters else letters)) := by
  cases negative with
  | false =>
      refine ⟨[.number], .number, ?_⟩
      intro depth
      exact ⟨[], .number, [.number],
        .ofList (run_numeral hNumeral depth), .number, rfl⟩
  | true =>
      refine ⟨[.symbol '-', .number], .negative, ?_⟩
      intro depth
      refine ⟨[⟨depth, .symbol '-'⟩], .number, [.number], ?_,
        .number, rfl⟩
      exact .ofList (run_cons_eq_some_iff.mpr
        ⟨_, ⟨depth, .blank⟩, [], rfl,
          run_numeral hNumeral depth, rfl⟩)

/- An integer is one value. -/
theorem isScalarText_integer (n : Int) :
    IsScalarText (Literal.integer n) := by
  have hScalar :=
    isScalarText_numeral (isNumeral_natText n.natAbs)
      (decide (n < 0))
  simpa [Literal.integer, Number.intText] using hScalar

/- A binary number is one value. -/
theorem isScalarText_binary (x : Binary64) :
    IsScalarText (Literal.binary x) :=
  isScalarText_numeral (isNumeral_magnitude x) x.negative

/- A number of any kind is one value. -/
theorem isScalarText_number (n : Number) :
    IsScalarText (Literal.number n) := by
  cases n with
  | integer value _ => exact isScalarText_integer value
  | binary value => exact isScalarText_binary value

/- A word that stands for a value is one. -/
theorem isScalarText_constant
    {letters : List Char}
    (hConstant : letters ∈ constants) :
    IsScalarText (String.ofList letters) := by
  refine ⟨[.name letters], .constant hConstant, ?_⟩
  intro depth
  refine ⟨[], .name letters, [.name letters], .ofList ?_,
    .name letters, rfl⟩
  simp only [constants, List.mem_cons, List.not_mem_nil,
    or_false] at hConstant
  rcases hConstant with rfl | rfl | rfl
  · rfl
  · rfl
  · rfl

/- A truth value is one value. -/
theorem isScalarText_boolean (flag : Bool) :
    IsScalarText (Literal.boolean flag) := by
  cases flag with
  | false => exact isScalarText_constant (by decide)
  | true => exact isScalarText_constant (by decide)

------------------------------------------------------------
-- Values in Their Place
------------------------------------------------------------

/-
  Tokens that stay inside the brackets that are open, with no
  names but the words that stand for values.
-/
def IsQuiet
    (depth : Nat)
    (tokens : List Placed) : Prop :=
  ∀ placed ∈ tokens,
    depth ≤ placed.depth ∧
      ∀ letters,
        placed.token = .name letters → letters ∈ constants

/- A text that has quiet tokens wherever it stands. -/
def IsQuietText (text : String) : Prop :=
  ∀ depth, ∃ tokens,
    Fills depth text tokens ∧ IsQuiet depth tokens

/- Quiet tokens behind quiet tokens. -/
theorem IsQuiet.append
    (hFirst : IsQuiet depth tokens)
    (hSecond : IsQuiet depth others) :
    IsQuiet depth (tokens ++ others) :=
  List.forall_mem_append.mpr ⟨hFirst, hSecond⟩

/- What is quiet deep inside is so further out. -/
theorem IsQuiet.of_succ
    (hQuiet : IsQuiet (depth + 1) tokens) :
    IsQuiet depth tokens := by
  intro placed hPlaced
  have hInside := hQuiet placed hPlaced
  exact ⟨Nat.le_of_succ_le hInside.1, hInside.2⟩

/- A symbol is quiet. -/
theorem isQuiet_symbol
    (depth : Nat)
    (c : Char) :
    IsQuiet depth [⟨depth, .symbol c⟩] := by
  intro placed hPlaced
  rw [List.mem_singleton.mp hPlaced]
  exact ⟨Nat.le_refl depth, by simp⟩

/- The tokens of a value without others in it are quiet. -/
theorem IsScalar.isQuiet
    {value : List Token}
    (hScalar : IsScalar value)
    (depth : Nat) :
    IsQuiet depth (placedAt depth value) := by
  intro placed hPlaced
  rcases List.mem_map.mp hPlaced with ⟨token, hMem, rfl⟩
  refine ⟨Nat.le_refl depth, ?_⟩
  rintro letters rfl
  cases hScalar with
  | text => simp at hMem
  | number => simp at hMem
  | negative => simp at hMem
  | constant hConstant =>
      rw [List.mem_singleton, Token.name.injEq] at hMem
      exact hMem ▸ hConstant

/- A value without others in it is quiet. -/
theorem IsScalarText.isQuietText
    (hScalar : IsScalarText text) :
    IsQuietText text := by
  rcases hScalar with ⟨value, hValue, hFills⟩
  intro depth
  exact ⟨_, hFills depth, hValue.isQuiet depth⟩

/- Quiet texts with a separator between them. -/
theorem IsQuietText.separated
    {c : Char}
    (hText : IsQuietText text)
    (hSign : c = ',' ∨ c = ':')
    (hMore : IsQuietText more) :
    IsQuietText (text ++ String.ofList [c, ' '] ++ more) := by
  intro depth
  have hSeparator :
      run ⟨depth, .blank⟩ [c, ' '] =
        some ([⟨depth, .symbol c⟩], ⟨depth, .blank⟩) := by
    rcases hSign with rfl | rfl
    · rfl
    · rfl
  have hEnder : c ∈ enders := by
    rcases hSign with rfl | rfl
    · decide
    · decide
  rcases hText depth with ⟨tokens, hTokens, hQuiet⟩
  rcases hMore depth with ⟨others, hOthers, hQuietToo⟩
  refine ⟨_, hOthers.behind (hTokens.moves hEnder hSeparator), ?_⟩
  exact (hQuiet.append (isQuiet_symbol depth c)).append
    hQuietToo

/- Quiet texts with commas between them. -/
theorem isQuietText_commas
    {texts : List String}
    (hTexts : ∀ text ∈ texts, IsQuietText text) :
    IsQuietText (", ".intercalate texts) := by
  induction texts with
  | nil =>
      intro depth
      refine ⟨[], ⟨[], .blank, [], rfl, .blank, rfl⟩, ?_⟩
      simp [IsQuiet]
  | cons first texts ih =>
      rw [List.forall_mem_cons] at hTexts
      cases texts with
      | nil =>
          rw [String.intercalate_singleton]
          exact hTexts.1
      | cons second texts =>
          rw [String.intercalate_cons_cons]
          exact hTexts.1.separated (by decide) (ih hTexts.2)

/- Brackets that a value can stand in. -/
def brackets : List (Char × List Char) :=
  [('(', [')']), ('(', [',', ')']), ('[', [']']),
    ('\x7b', ['\x7d'])]

/- A closing bracket is read back to where it was opened. -/
theorem exists_run_closing
    {c : Char}
    {closing : List Char}
    (hBrackets : (c, closing) ∈ brackets)
    (depth : Nat) :
    run ⟨depth, .blank⟩ [c] =
        some ([⟨depth, .symbol c⟩], ⟨depth + 1, .blank⟩) ∧
      ∃ first rest tokens,
        closing = first :: rest ∧ first ∈ enders ∧
          run ⟨depth + 1, .blank⟩ (first :: rest) =
            some (tokens, ⟨depth, .blank⟩) ∧
          IsQuiet depth tokens := by
  simp only [brackets, List.mem_cons, List.not_mem_nil,
    or_false, Prod.mk.injEq] at hBrackets
  rcases hBrackets with ⟨rfl, rfl⟩ | ⟨rfl, rfl⟩ | ⟨rfl, rfl⟩ |
    ⟨rfl, rfl⟩
  · exact ⟨rfl, _, _, _, rfl, by decide, rfl,
      isQuiet_symbol depth ')'⟩
  · exact ⟨rfl, _, _, _, rfl, by decide, rfl,
      (isQuiet_symbol (depth + 1) ',').of_succ.append
        (isQuiet_symbol depth ')')⟩
  · exact ⟨rfl, _, _, _, rfl, by decide, rfl,
      isQuiet_symbol depth ']'⟩
  · exact ⟨rfl, _, _, _, rfl, by decide, rfl,
      isQuiet_symbol depth '\x7d'⟩

/- A quiet text in brackets is quiet. -/
theorem IsQuietText.bracketed
    {c : Char}
    {closing : List Char}
    (hText : IsQuietText text)
    (hBrackets : (c, closing) ∈ brackets) :
    IsQuietText
      (String.ofList [c] ++ text ++ String.ofList closing) := by
  intro depth
  rcases exists_run_closing hBrackets depth with
    ⟨hOpen, first, rest, others, rfl, hEnder, hClose,
      hQuietToo⟩
  rcases hText (depth + 1) with ⟨tokens, hTokens, hQuiet⟩
  have hMoves :
      Moves ⟨depth, .blank⟩
        (String.ofList [c] ++
          (text ++ String.ofList (first :: rest)))
        ([⟨depth, .symbol c⟩] ++ (tokens ++ others))
        ⟨depth, .blank⟩ :=
    (Moves.ofList hOpen).append (hTokens.moves hEnder hClose)
  rw [String.append_assoc]
  refine ⟨_, ⟨_, .blank, [], hMoves, .blank, rfl⟩, ?_⟩
  rw [placedAt, List.map_nil, List.append_nil]
  exact (isQuiet_symbol depth c).append
    (hQuiet.of_succ.append hQuietToo)

mutual

/- A value of any shape is quiet. -/
theorem isQuietText_value :
    ∀ value, IsQuietText (Literal.value value)
  | .null =>
      (isScalarText_constant (by decide)).isQuietText
  | .boolean flag => (isScalarText_boolean flag).isQuietText
  | .number n => (isScalarText_number n).isQuietText
  | .text content => (isScalarText_text content).isQuietText
  | .array items =>
      (isQuietText_commas (isQuietText_items items)).bracketed
        (by decide)
  | .object members =>
      (isQuietText_commas
        (isQuietText_members members)).bracketed (by decide)

/- The items of a list are quiet. -/
theorem isQuietText_items :
    ∀ items, ∀ text ∈ Literal.itemTexts items, IsQuietText text
  | [] => by simp [Literal.itemTexts]
  | item :: rest => by
      rw [Literal.itemTexts, List.forall_mem_cons]
      exact ⟨isQuietText_value item, isQuietText_items rest⟩

/- The members of a mapping are quiet. -/
theorem isQuietText_members :
    ∀ members,
      ∀ text ∈ Literal.memberTexts members, IsQuietText text
  | [] => by simp [Literal.memberTexts]
  | (key, item) :: rest => by
      rw [Literal.memberTexts, List.forall_mem_cons]
      exact ⟨(isScalarText_text key).isQuietText.separated
        (by decide) (isQuietText_value item),
        isQuietText_members rest⟩

end

/- A tuple of values is quiet. -/
theorem isQuietText_tuple (items : List Json.Value) :
    IsQuietText (Literal.tuple items) := by
  have hItems := isQuietText_items items
  unfold Literal.tuple
  split
  · next single hSingle =>
      rw [hSingle, List.forall_mem_singleton] at hItems
      exact hItems.bracketed (by decide)
  · exact (isQuietText_commas hItems).bracketed (by decide)

end Lexis

end PipelineScript
