import PipelineScript.Proofs.Lexis.Tokens
import PipelineScript.Proofs.Text.Lines

/-
  The statements that lines of a script make up, the names
  that occur in them, and the names that they bind.

  Of the statements that bind names, assignments and loops are
  understood. Those that bind them in other ways are refused,
  and so is a statement behind a colon on the same line.

  Key definitions include:
    * `Lexis.Statement`
    * `Lexis.gather`
    * `Lexis.read?`
    * `Lexis.names`
    * `Lexis.bound`

  Key theorems include:
    * `Lexis.gather_append`
    * `Lexis.Yields.append`
    * `Lexis.read?_unlines`
    * `Lexis.isLegible_of_gather`
-/

namespace PipelineScript

namespace Lexis

------------------------------------------------------------
-- Names in Statements
------------------------------------------------------------

/- The tokens that stand in no brackets. -/
def outer (tokens : List Placed) : List Token :=
  (tokens.filter (·.depth == 0)).map Placed.token

/- The letters of a name. -/
def lettersOf? : Token → Option (List Char)
  | .name letters => some letters
  | _ => none

/- The letters of all names. -/
def lettersOf (tokens : List Placed) : List (List Char) :=
  tokens.filterMap fun placed => lettersOf? placed.token

/- The letters of all names are those of tokens. -/
theorem mem_lettersOf_iff
    {tokens : List Placed}
    {letters : List Char} :
    letters ∈ lettersOf tokens ↔
      ∃ placed ∈ tokens, placed.token = .name letters := by
  have hToken (token : Token) :
      lettersOf? token = some letters ↔
        token = .name letters := by
    cases token <;> simp [lettersOf?]
  simp [lettersOf, hToken]

/- The names that occur, other than behind a point. -/
def names (tokens : List Placed) : List String :=
  (lettersOf tokens).map String.ofList

/-
  Words that bind names in ways that are not understood, or
  that open a new scope.
-/
def scopeWords : List String :=
  ["as", "async", "case", "class", "def", "del", "except",
    "from", "global", "import", "lambda", "match", "nonlocal",
    "with"]

/- The sign of an assignment stands behind the token. -/
def isAssigned (token : Token) : List Token → Bool
  | .symbol '=' :: rest =>
      token != .symbol '=' && rest.head? != some (.symbol '=')
  | _ => false

/- What stands in front of the last sign of an assignment. -/
def targets : List Token → List Token
  | [] => []
  | token :: rest =>
      match targets rest with
      | [] => if isAssigned token rest then [token] else []
      | more => token :: more

/-
  What a statement gives a value to: what stands in front of
  the last sign of an assignment, or between `for` and `in`.
-/
def aims (tokens : List Placed) : List Token :=
  match outer tokens with
  | .name ['f', 'o', 'r'] :: rest =>
      rest.takeWhile (· != .name ['i', 'n'])
  | statement => targets statement

/- The names that no point stands behind. -/
def bare : List Token → List (List Char)
  | [] => []
  | .name letters :: rest =>
      if rest.head? = some (.symbol '.') then
        bare rest
      else
        letters :: bare rest
  | _ :: rest => bare rest

/- The letters of the names that a statement binds. -/
def boundLetters (tokens : List Placed) : List (List Char) :=
  bare (aims tokens)

/- The names that a statement binds. -/
def bound (tokens : List Placed) : List String :=
  (boundLetters tokens).map String.ofList

/- The token opens brackets. -/
def isBracket : Token → Bool
  | .symbol c => c == '(' || c == '[' || c == '\x7b'
  | _ => false

/-
  A statement that gives a value to nothing in brackets, and
  holds no other statement.
-/
def isDirect (tokens : List Placed) : Bool :=
  !(outer tokens).dropLast.contains (.symbol ':')
    && (aims tokens).all (fun token => !isBracket token)

/- A direct statement with assignments and loops only. -/
def isSimple (tokens : List Placed) : Bool :=
  (names tokens).all (fun name => !scopeWords.contains name)
    && isDirect tokens

------------------------------------------------------------
-- Statements
------------------------------------------------------------

/- How far a statement stands in, and its tokens. -/
structure Statement where
  indent : Nat
  tokens : List Placed
deriving DecidableEq, Repr

/- A statement begins with a line, or goes on with it. -/
def extend
    (begun : Option (Statement × Nat))
    (line : List Char)
    (tokens : List Placed) : Statement :=
  match begun with
  | none => ⟨(line.takeWhile isRoom).length, tokens⟩
  | some (statement, _) =>
      ⟨statement.indent, statement.tokens ++ tokens⟩

/-
  The statements of lines. One that has begun goes on until
  no bracket is open. Lines without tokens are none.
-/
def gather
    (begun : Option (Statement × Nat)) :
    List (List Char) → Option (List Statement)
  | [] => if begun.isNone then some [] else none
  | line :: rest =>
      match lineTokens? ((begun.map Prod.snd).getD 0) line with
      | none => none
      | some (tokens, 0) =>
          (gather none rest).map fun others =>
            if (extend begun line tokens).tokens.isEmpty then
              others
            else
              extend begun line tokens :: others
      | some (tokens, depth + 1) =>
          gather (some (extend begun line tokens, depth + 1))
            rest

/- The statements of a text, if it can be understood. -/
def read? (text : String) : Option (List Statement) :=
  match gather none (List.splitOn '\n' text.toList) with
  | none => none
  | some statements =>
      if statements.all (fun s => isSimple s.tokens) then
        some statements
      else
        none

------------------------------------------------------------
-- Gathering
------------------------------------------------------------

variable {begun : Option (Statement × Nat)}
variable {statements more : List Statement}

/- Lines behind whole statements make up others. -/
theorem gather_append
    {first second : List (List Char)}
    (hFirst : gather begun first = some statements)
    (hSecond : gather none second = some more) :
    gather begun (first ++ second) =
      some (statements ++ more) := by
  induction first generalizing begun statements with
  | nil =>
      cases begun with
      | none =>
          simp only [gather, Option.isNone_none, if_true,
            Option.some.injEq] at hFirst
          rw [← hFirst]
          exact hSecond
      | some begun => simp [gather] at hFirst
  | cons line first ih =>
      rw [List.cons_append]
      unfold gather at hFirst ⊢
      split at hFirst
      · simp at hFirst
      · next tokens _ =>
          rcases Option.map_eq_some_iff.mp hFirst with
            ⟨others, hOthers, rfl⟩
          rw [ih hOthers, Option.map_some]
          split <;> rfl
      · exact ih hFirst

/- Lines that are understood have no control characters. -/
theorem isLegible_of_gather
    {lines : List (List Char)}
    (hGather : gather begun lines = some statements) :
    ∀ line ∈ lines, ∀ c ∈ line, isLegible c := by
  induction lines generalizing begun statements with
  | nil => simp
  | cons line lines ih =>
      rw [List.forall_mem_cons]
      unfold gather at hGather
      split at hGather
      · simp at hGather
      · next hTokens =>
          rcases Option.map_eq_some_iff.mp hGather with
            ⟨others, hOthers, -⟩
          exact ⟨isLegible_of_lineTokens? hTokens, ih hOthers⟩
      · next hTokens =>
          exact ⟨isLegible_of_lineTokens? hTokens, ih hGather⟩

/- The tokens of what has begun, without its indent. -/
def begunTokens
    (begun : Option (Statement × Nat)) :
    Option (List Placed × Nat) :=
  begun.map fun (statement, depth) => (statement.tokens, depth)

/- Going on with a line takes no account of indents. -/
theorem tokens_extend
    {other : Option (Statement × Nat)}
    (hBegun : begunTokens begun = begunTokens other)
    (line otherLine : List Char)
    (tokens : List Placed) :
    (extend begun line tokens).tokens =
      (extend other otherLine tokens).tokens := by
  cases begun with
  | none =>
      cases other with
      | none => rfl
      | some other => simp [begunTokens] at hBegun
  | some begun =>
      cases other with
      | none => simp [begunTokens] at hBegun
      | some other =>
          simp only [begunTokens, Option.map_some,
            Option.some.injEq, Prod.mk.injEq] at hBegun
          simp [extend, hBegun.1]

/- Lines with the same tokens make up the same statements. -/
theorem exists_gather_map
    {α : Type}
    {first second : α → List Char}
    (hSame :
      ∀ x depth,
        lineTokens? depth (first x) =
          lineTokens? depth (second x))
    {xs : List α}
    {other : Option (Statement × Nat)}
    (hBegun : begunTokens begun = begunTokens other)
    (hGather : gather begun (xs.map first) = some statements) :
    ∃ others,
      gather other (xs.map second) = some others ∧
        others.map Statement.tokens =
          statements.map Statement.tokens := by
  have hDepth :
      (begun.map Prod.snd).getD 0 =
        (other.map Prod.snd).getD 0 := by
    have hSecond :=
      congrArg (Option.map Prod.snd) hBegun
    simp only [begunTokens, Option.map_map] at hSecond
    exact congrArg (Option.getD · 0) hSecond
  induction xs generalizing begun other statements with
  | nil =>
      cases begun with
      | some begun => simp [gather] at hGather
      | none =>
          cases other with
          | some other => simp [begunTokens] at hBegun
          | none => exact ⟨statements, hGather, rfl⟩
  | cons x xs ih =>
      rw [List.map_cons] at hGather ⊢
      unfold gather at hGather ⊢
      rw [← hDepth, ← hSame]
      have hTokens :=
        tokens_extend hBegun (first x) (second x)
      split at hGather
      · simp at hGather
      · next tokens _ =>
          rcases Option.map_eq_some_iff.mp hGather with
            ⟨rest, hRest, rfl⟩
          rcases ih rfl hRest rfl with ⟨others, hOthers, hEq⟩
          refine ⟨_, by rw [hOthers]; rfl, ?_⟩
          rw [hTokens]
          split
          · exact hEq
          · rw [List.map_cons, List.map_cons, hTokens, hEq]
      · next tokens depth _ =>
          refine ih ?_ hGather rfl
          simp [begunTokens, hTokens]

/- A text made of lines is read as its lines are. -/
theorem read?_unlines
    {lines : List String}
    (hGather :
      gather none (lines.map String.toList) = some statements)
    (hSimple : ∀ s ∈ statements, isSimple s.tokens) :
    read? (Text.unlines lines) = some statements := by
  have hBreaks : ∀ line ∈ lines, '\n' ∉ line.toList := by
    intro line hLine hBreak
    have hLegible :=
      isLegible_of_gather hGather line.toList
        (List.mem_map_of_mem hLine) '\n' hBreak
    exact absurd hLegible (by decide)
  have hAll :
      gather none (lines.map String.toList ++ [[]]) =
        some (statements ++ []) :=
    gather_append hGather rfl
  unfold read?
  rw [Text.splitOn_unlines hBreaks, hAll, List.append_nil]
  exact if_pos (List.all_eq_true.mpr hSimple)

/- A loop over pairs, with an assignment in it. -/
example :
    (read? "for x, y in z:\n\ta.b, c = f(d=g.h)  # i\n").map
        (fun statements =>
          statements.map fun s =>
            (s.indent, names s.tokens, bound s.tokens)) =
      some
        [(0, ["for", "x", "y", "in", "z"], ["x", "y"]),
          (1, ["a", "c", "f", "d", "g"], ["c"])] := by
  decide

------------------------------------------------------------
-- Lines with Good Statements
------------------------------------------------------------

/- Lines that make up statements, all of them good. -/
def Yields
    (IsGood : List Placed → Prop)
    (lines : List String) : Prop :=
  ∃ statements,
    gather none (lines.map String.toList) = some statements ∧
      ∀ s ∈ statements, IsGood s.tokens

variable {IsGood : List Placed → Prop}

/- Good lines go on with good lines. -/
theorem Yields.append
    {first second : List String}
    (hFirst : Yields IsGood first)
    (hSecond : Yields IsGood second) :
    Yields IsGood (first ++ second) := by
  rcases hFirst with ⟨statements, hStatements, hGood⟩
  rcases hSecond with ⟨others, hOthers, hGoodToo⟩
  refine ⟨statements ++ others, ?_, ?_⟩
  · rw [List.map_append]
    exact gather_append hStatements hOthers
  · rw [List.forall_mem_append]
    exact ⟨hGood, hGoodToo⟩

/- Lines are good if each of them is. -/
theorem yields_of_forall
    {lines : List String}
    (hLines : ∀ line ∈ lines, Yields IsGood [line]) :
    Yields IsGood lines := by
  induction lines with
  | nil => exact ⟨[], rfl, by simp⟩
  | cons line lines ih =>
      rw [List.forall_mem_cons] at hLines
      exact hLines.1.append (ih hLines.2)

/- A line is good if it is complete, and its tokens are. -/
theorem yields_line
    {line : String}
    {tokens : List Placed}
    (hTokens : lineTokens? 0 line.toList = some (tokens, 0))
    (hGood : tokens ≠ [] → IsGood tokens) :
    Yields IsGood [line] := by
  have hGather :
      gather none [line.toList] =
        some
          (if tokens.isEmpty then
            []
          else
            [extend none line.toList tokens]) := by
    simp [gather, hTokens, extend]
  refine ⟨_, hGather, ?_⟩
  split
  · simp
  · next hSome =>
      rw [List.forall_mem_singleton]
      exact hGood (by simpa using hSome)

end Lexis

end PipelineScript
