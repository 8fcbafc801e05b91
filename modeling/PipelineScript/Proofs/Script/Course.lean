import PipelineScript.Proofs.Lexis.Literals
import PipelineScript.Proofs.Script.Rendering

/-
  What becomes of a script that is followed line by line.

  A line can give a text to a name, open a branch, or raise an
  error. A branch is taken if its condition holds, and a
  condition compares the text of a name, as it is or in small
  letters, with another text. All other lines do nothing here.

  Key definitions include:
    * `Course.readText?`
    * `Course.Deed`
    * `Course.State`
    * `Course.follow`
    * `Course.run`
    * `Course.raises`
    * `Course.LeadsOn`
    * `Course.Fails`
    * `Course.IsQuiet`
    * `Course.Binds`

  Key theorems include:
    * `Course.readText?_text`
    * `Course.run_render`
    * `Course.leadsOn_or_fails_flatMap`
    * `Course.leadsOn_of_isQuiet`
    * `Course.deedOf_assignment`
    * `Course.deedOf_branch`
-/

namespace PipelineScript

namespace Course

------------------------------------------------------------
-- Reading Texts
------------------------------------------------------------

/- The value of a hexadecimal digit. -/
def hexValue? (c : Char) : Option Nat :=
  if c.isDigit then
    some (c.toNat - '0'.toNat)
  else if 'a' ≤ c && c ≤ 'f' then
    some (c.toNat - 'a'.toNat + 10)
  else
    none

/- The character that two hexadecimal digits stand for. -/
def hexChar? (high low : Char) : Option Char := do
  let first ← hexValue? high
  let second ← hexValue? low
  some (Char.ofNat (16 * first + second))

/- What stands before the mark that closes a text. -/
def readQuoted : List Char → Option (List Char)
  | ['\''] => some []
  | '\\' :: '\\' :: rest => (readQuoted rest).map ('\\' :: ·)
  | '\\' :: '\'' :: rest => (readQuoted rest).map ('\'' :: ·)
  | '\\' :: 'n' :: rest => (readQuoted rest).map ('\n' :: ·)
  | '\\' :: 'r' :: rest => (readQuoted rest).map ('\r' :: ·)
  | '\\' :: 't' :: rest => (readQuoted rest).map ('\t' :: ·)
  | '\\' :: 'x' :: high :: low :: rest =>
      match hexChar? high low with
      | some c => (readQuoted rest).map (c :: ·)
      | none => none
  | '\\' :: _ => none
  | '\'' :: _ => none
  | [] => none
  | c :: rest => (readQuoted rest).map (c :: ·)

/- The text that a literal in single quotes stands for. -/
def readText? (letters : List Char) : Option String :=
  match letters with
  | '\'' :: rest => (readQuoted rest).map String.ofList
  | _ => none

/- Two digits stand for the character they were made from. -/
theorem hexPair_spec :
    ∀ n < 160,
      (Text.hexPair n).map hexValue? =
        [some (n / 16), some (n % 16)] := by
  decide +kernel

/- A control character is read from its escape. -/
theorem readQuoted_escapedControl
    {c : Char}
    (hControl : Text.isControl c)
    (rest : List Char) :
    readQuoted (Literal.escapedControl c ++ rest) =
      (readQuoted rest).map (c :: ·) := by
  unfold Literal.escapedControl
  split
  · next hLine =>
      rw [beq_iff_eq.mp hLine]
      rfl
  split
  · next hReturn =>
      rw [beq_iff_eq.mp hReturn]
      rfl
  split
  · next hTab =>
      rw [beq_iff_eq.mp hTab]
      rfl
  · have hPair :=
      hexPair_spec c.toNat (Lexis.toNat_lt_of_isControl hControl)
    rcases List.map_eq_cons_iff.mp hPair with
      ⟨high, tail, hDigits, hHigh, hTail⟩
    rcases List.map_eq_cons_iff.mp hTail with
      ⟨low, none, rfl, hLow, hNone⟩
    rw [List.map_eq_nil_iff] at hNone
    subst hNone
    have hChar : hexChar? high low = some c := by
      rw [hexChar?, hHigh, hLow]
      change
        some (Char.ofNat (16 * (c.toNat / 16) + c.toNat % 16)) =
          some c
      rw [Nat.div_add_mod, Char.ofNat_toNat]
    rw [hDigits]
    change readQuoted ('\\' :: 'x' :: high :: low :: rest) = _
    rw [readQuoted, hChar]

/- A character is read from the way it is written in a text. -/
theorem readQuoted_quotedChar
    (c : Char)
    (rest : List Char) :
    readQuoted (Literal.quotedChar c ++ rest) =
      (readQuoted rest).map (c :: ·) := by
  unfold Literal.quotedChar
  split
  · next hMark =>
      rw [beq_iff_eq.mp hMark]
      rfl
  split
  · next hQuote =>
      rw [beq_iff_eq.mp hQuote]
      rfl
  split
  · next hControl => exact readQuoted_escapedControl hControl rest
  · next hMark hQuote _ =>
      rw [beq_iff_eq] at hMark hQuote
      simp [readQuoted, hMark, hQuote]

/- A literal stands for the text it was made from. -/
theorem readText?_text (value : String) :
    readText? (Literal.text value).toList = some value := by
  have hInside (letters : List Char) :
      readQuoted (letters.flatMap Literal.quotedChar ++ ['\'']) =
        some letters := by
    induction letters with
    | nil => rfl
    | cons c letters ih =>
        rw [List.flatMap_cons, List.append_assoc,
          readQuoted_quotedChar, ih]
        rfl
  rw [Literal.text, String.toList_ofList, readText?, hInside,
    Option.map_some, String.ofList_toList]

------------------------------------------------------------
-- Deeds
------------------------------------------------------------

/- The text of a name is compared, perhaps in small letters. -/
structure Condition where
  name : String
  isLowered : Bool
  value : String
deriving DecidableEq, Repr

/- What a line does, as far as it is followed. -/
inductive Deed where
  | pass
  | bind (name : String) (value : Option String)
  | test (isFirst : Bool) (condition : Option Condition)
  | otherwise
  | fail
deriving DecidableEq, Repr

/- The text that a condition compares with, up to its colon. -/
def readTested? (letters : List Char) : Option String :=
  if letters.getLast? = some ':' then
    readText? letters.dropLast
  else
    none

/- A condition that is understood, up to its colon. -/
def readCondition? (letters : List Char) : Option Condition :=
  let name := String.ofList (letters.takeWhile Text.isNamePart)
  match letters.dropWhile Text.isNamePart with
  | '.' :: 'l' :: 'o' :: 'w' :: 'e' :: 'r' :: '(' :: ')' ::
      ' ' :: '=' :: '=' :: ' ' :: tested =>
      (readTested? tested).map (⟨name, true, ·⟩)
  | ' ' :: '=' :: '=' :: ' ' :: tested =>
      (readTested? tested).map (⟨name, false, ·⟩)
  | _ => none

/-
  What a line does, without its indent. It is told by its
  first word, or by the sign of an assignment behind that.
-/
def deedOf (letters : List Char) : Deed :=
  let word := String.ofList (letters.takeWhile Text.isNamePart)
  let rest := letters.dropWhile Text.isNamePart
  if word = "if" then
    .test true (readCondition? (rest.drop 1))
  else if word = "elif" then
    .test false (readCondition? (rest.drop 1))
  else if word = "else" then
    .otherwise
  else if word = "raise" then
    .fail
  else
    match rest with
    | ' ' :: '=' :: ' ' :: value => .bind word (readText? value)
    | _ => .pass

------------------------------------------------------------
-- Following Lines
------------------------------------------------------------

/- Why lines are not followed to their end. -/
inductive Stop where
  | raised
  | unclear
deriving DecidableEq, Repr

/-
  The texts that names have, the indents at which a branch was
  taken, and the indent of a header whose branch is not.
-/
structure State where
  values : String → Option String
  taken : List Nat
  skipped : Option Nat

namespace State

/- Nothing has a text, and no branch was taken. -/
def start : State where
  values := fun _ => none
  taken := []
  skipped := none

/- A name has a text, or a value that is not followed. -/
def bind
    (state : State)
    (name : String)
    (value : Option String) : State :=
  { state with
    values := fun other =>
      if other = name then value else state.values other }

/- No branch is skipped. -/
def resume (state : State) : State :=
  { state with skipped := none }

/- The branch below a header is skipped. -/
def skip (state : State) (indent : Nat) : State :=
  { state with skipped := some indent }

/- A branch was taken, and so none of the others will be. -/
def take (state : State) (indent : Nat) : State :=
  { state with taken := indent :: state.taken }

/- No branch was taken up to now. -/
def leave (state : State) (indent : Nat) : State :=
  { state with taken := state.taken.filter (· != indent) }

end State

variable (lower : String → String)

/- A condition holds, if it is known what it compares. -/
def holds?
    (values : String → Option String)
    (condition : Option Condition) : Option Bool := do
  let condition ← condition
  let value ← values condition.name
  let operand :=
    if condition.isLowered then lower value else value
  some (operand == condition.value)

/- Do what a line does at its indent. -/
def act
    (state : State)
    (indent : Nat) : Deed → Except Stop State
  | .pass => .ok state
  | .bind name value => .ok (state.bind name value)
  | .test isFirst condition =>
      if !isFirst && state.taken.contains indent then
        .ok (state.skip indent)
      else
        match holds? lower state.values condition with
        | some true => .ok (state.take indent)
        | some false => .ok ((state.leave indent).skip indent)
        | none => .error .unclear
  | .otherwise =>
      if state.taken.contains indent then
        .ok (state.skip indent)
      else
        .ok state
  | .fail => .error .raised

/- Follow a line at its indent, unless its branch is skipped. -/
def followAt
    (state : State)
    (indent : Nat)
    (letters : List Char) : Except Stop State :=
  if letters.isEmpty then
    .ok state
  else if state.skipped.any (· < indent) then
    .ok state
  else
    act lower state.resume indent (deedOf letters)

/- Follow a line. -/
def follow
    (state : State)
    (line : String) : Except Stop State :=
  followAt lower state
    (line.toList.takeWhile Lexis.isRoom).length
    (line.toList.dropWhile Lexis.isRoom)

/- Follow lines from the first to the last. -/
def run
    (state : State)
    (lines : List String) : Except Stop State :=
  lines.foldlM (follow lower) state

/- Following the lines leads to one that raises an error. -/
def raises (lines : List String) : Bool :=
  match run lower .start lines with
  | .error .raised => true
  | _ => false

/- Small letters are told from others, and one branch is taken. -/
example :
    raises (fun _ => "b")
        ["x = 'B'", "if x.lower() == 'a':", "\ty = 1",
          "elif x == 'b':", "\traise y", "else:", "\traise x"] =
        true ∧
      raises (fun _ => "b")
        ["x = 'B'", "if x.lower() == 'b':", "\ty = 1",
          "elif x == 'B':", "\traise y", "else:",
          "\traise x"] = false := by
  decide

variable {lower}
variable {state : State}

------------------------------------------------------------
-- Lines with Indents
------------------------------------------------------------

/- A text that begins with no room. -/
def IsFlush (text : String) : Prop :=
  text.toList.head?.all (!Lexis.isRoom ·)

/- Follow entries, with an indent of the given width. -/
def runAt
    (lower : String → String)
    (width : Nat)
    (state : State)
    (entries : List (Nat × String)) : Except Stop State :=
  entries.foldlM
    (fun state entry =>
      followAt lower state (entry.1 * width) entry.2.toList)
    state

/- The indent of a line is as wide as its level tells. -/
theorem follow_lineAt
    {unit : String}
    (hUnit : Code.IsRoom unit)
    {entry : Nat × String}
    (hFlush : IsFlush entry.2) :
    follow lower state (Code.lineAt unit entry) =
      followAt lower state (entry.1 * unit.length)
        entry.2.toList := by
  rcases entry with ⟨level, text⟩
  unfold follow Code.lineAt
  split
  · next hEmpty =>
      rw [String.isEmpty_iff.mp hEmpty]
      rfl
  · have hRoom := Code.isRoom_replicate hUnit level
    have hWidth :
        (String.join
            (List.replicate level unit)).toList.length =
          level * unit.length := by
      rw [String.toList_join, List.length_flatMap,
        List.map_replicate, List.sum_replicate_nat,
        String.length_toList]
    have hText :
        text.toList.takeWhile Lexis.isRoom = [] ∧
          text.toList.dropWhile Lexis.isRoom = text.toList := by
      cases hLetters : text.toList with
      | nil => exact ⟨rfl, rfl⟩
      | cons c rest =>
          have hHead : Lexis.isRoom c = false := by
            simpa [IsFlush, hLetters] using hFlush
          rw [List.takeWhile_cons, List.dropWhile_cons, hHead]
          exact ⟨rfl, rfl⟩
    rw [Code.Writer.indented, String.toList_append,
      List.takeWhile_append_of_pos hRoom,
      List.dropWhile_append_of_pos hRoom, hText.1, hText.2,
      List.append_nil, hWidth]

/- Code is followed entry by entry. -/
theorem run_render
    {unit : String}
    (hUnit : Code.IsRoom unit)
    {items : List Code.Item}
    (hFlush : ∀ text ∈ Code.texts items, IsFlush text) :
    run lower state (Code.render unit items) =
      runAt lower unit.length state (Code.entries 0 items) := by
  have hAll := Code.forall_mem_entries hFlush 0
  rw [Code.render_eq_map]
  generalize Code.entries 0 items = entries at hAll ⊢
  induction entries generalizing state with
  | nil => rfl
  | cons entry entries ih =>
      rw [List.forall_mem_cons] at hAll
      have hRest :
          (fun next => run lower next
              (entries.map (Code.lineAt unit))) =
            fun next => runAt lower unit.length next entries :=
        funext fun next => ih hAll.2
      change follow lower state (Code.lineAt unit entry) >>=
          (fun next => run lower next
            (entries.map (Code.lineAt unit))) = _
      rw [hRest, follow_lineAt hUnit hAll.1]
      rfl

/- Entries are followed one list after the other. -/
theorem runAt_append
    (width : Nat)
    (state : State)
    (first second : List (Nat × String)) :
    runAt lower width state (first ++ second) =
      runAt lower width state first >>= fun next =>
        runAt lower width next second := by
  exact List.foldlM_append

/- A list of entries is followed up to its end, or it is not. -/
theorem runAt_append_of_ok
    {width : Nat}
    {next : State}
    {first : List (Nat × String)}
    (hFirst : runAt lower width state first = .ok next)
    (second : List (Nat × String)) :
    runAt lower width state (first ++ second) =
      runAt lower width next second := by
  rw [runAt_append, hFirst]
  rfl

------------------------------------------------------------
-- Lines from Any State
------------------------------------------------------------

/- The lines are followed up to their end, from any state. -/
def LeadsOn
    (lower : String → String)
    (lines : List String) : Prop :=
  ∀ state, ∃ next, run lower state lines = .ok next

/- The lines raise an error, from any state. -/
def Fails
    (lower : String → String)
    (lines : List String) : Prop :=
  ∀ state, run lower state lines = .error .raised

/- Lines are followed one list after the other. -/
theorem run_append
    (state : State)
    (first second : List String) :
    run lower state (first ++ second) =
      run lower state first >>= fun next =>
        run lower next second := by
  exact List.foldlM_append

/- Lines that fail do not lead on. -/
theorem Fails.not_leadsOn
    {lines : List String}
    (hFails : Fails lower lines) :
    ¬ LeadsOn lower lines := by
  intro hOn
  rcases hOn .start with ⟨next, hNext⟩
  rw [hFails .start] at hNext
  cases hNext

/- Where lines do one of both, raising an error is failing. -/
theorem raises_iff_fails
    {lines : List String}
    (hLines : LeadsOn lower lines ∨ Fails lower lines) :
    raises lower lines ↔ Fails lower lines := by
  rcases hLines with hOn | hFails
  · rcases hOn .start with ⟨next, hNext⟩
    simp only [raises, hNext, Bool.false_eq_true, false_iff]
    exact fun hFails => hFails.not_leadsOn hOn
  · simp only [raises, hFails .start, true_iff]
    exact hFails

/- Blocks lead on if all do, and fail if one of them fails. -/
theorem leadsOn_or_fails_flatMap
    {α : Type}
    {blocks : List α}
    {lines : α → List String}
    (hBlocks :
      ∀ block ∈ blocks,
        LeadsOn lower (lines block) ∨
          Fails lower (lines block)) :
    LeadsOn lower (blocks.flatMap lines) ∧
        (∀ block ∈ blocks, ¬ Fails lower (lines block)) ∨
      Fails lower (blocks.flatMap lines) ∧
        ∃ block ∈ blocks, Fails lower (lines block) := by
  induction blocks with
  | nil => exact Or.inl ⟨fun state => ⟨state, rfl⟩, by simp⟩
  | cons block blocks ih =>
      rw [List.forall_mem_cons] at hBlocks
      rw [List.flatMap_cons]
      rcases hBlocks.1 with hOn | hFails
      · rcases ih hBlocks.2 with
          ⟨hRest, hNone⟩ | ⟨hRest, other, hOther, hFails⟩
        · refine Or.inl ⟨fun state => ?_, ?_⟩
          · rcases hOn state with ⟨middle, hMiddle⟩
            rcases hRest middle with ⟨next, hNext⟩
            refine ⟨next, ?_⟩
            rw [run_append, hMiddle, ← hNext]
            rfl
          · rw [List.forall_mem_cons]
            exact ⟨fun hFails => hFails.not_leadsOn hOn, hNone⟩
        · refine Or.inr ⟨fun state => ?_, other,
            List.mem_cons_of_mem _ hOther, hFails⟩
          rcases hOn state with ⟨middle, hMiddle⟩
          rw [run_append, hMiddle, ← hRest middle]
          rfl
      · refine Or.inr ⟨fun state => ?_, block,
          List.mem_cons_self, hFails⟩
        rw [run_append, hFails state]
        rfl

------------------------------------------------------------
-- Quiet Lines
------------------------------------------------------------

/- The words that open branches or raise an error. -/
def keywords : List String :=
  ["if", "elif", "else", "raise"]

/- A text that does nothing, or gives a value to a name. -/
structure IsQuiet (text : String) : Prop where
  isFlush : IsFlush text
  deed :
    deedOf text.toList = .pass ∨
      ∃ name value, deedOf text.toList = .bind name value

/- The text gives a value to the name. -/
def Binds (text name : String) : Prop :=
  ∃ value, deedOf text.toList = .bind name value

/-
  A quiet line leads on. It takes no branch, and only the name
  that it binds has another value behind it.
-/
theorem exists_followAt_of_isQuiet
    (lower : String → String)
    {text : String}
    (hQuiet : IsQuiet text)
    (state : State)
    (indent : Nat) :
    ∃ next,
      followAt lower state indent text.toList = .ok next ∧
        next.taken = state.taken ∧
        ∀ name, ¬ Binds text name →
          next.values name = state.values name := by
  unfold followAt
  split
  · exact ⟨state, rfl, rfl, fun _ _ => rfl⟩
  split
  · exact ⟨state, rfl, rfl, fun _ _ => rfl⟩
  rcases hQuiet.deed with hPass | ⟨bound, value, hBind⟩
  · rw [hPass]
    exact ⟨_, rfl, rfl, fun _ _ => rfl⟩
  · rw [hBind]
    refine ⟨_, rfl, rfl, ?_⟩
    intro name hFree
    have hOther : name ≠ bound := by
      rintro rfl
      exact hFree ⟨value, hBind⟩
    exact if_neg hOther

/- Quiet lines lead on up to their end. -/
theorem exists_runAt_of_isQuiet
    (lower : String → String)
    {entries : List (Nat × String)}
    (hQuiet : ∀ entry ∈ entries, IsQuiet entry.2)
    (width : Nat)
    (state : State) :
    ∃ next,
      runAt lower width state entries = .ok next ∧
        ∀ name,
          (∀ entry ∈ entries, ¬ Binds entry.2 name) →
            next.values name = state.values name := by
  induction entries generalizing state with
  | nil => exact ⟨state, rfl, fun _ _ => rfl⟩
  | cons entry entries ih =>
      rw [List.forall_mem_cons] at hQuiet
      rcases exists_followAt_of_isQuiet lower hQuiet.1 state
          (entry.1 * width) with
        ⟨middle, hMiddle, -, hKept⟩
      rcases ih hQuiet.2 middle with ⟨next, hNext, hAll⟩
      refine ⟨next, ?_, ?_⟩
      · rw [runAt, List.foldlM_cons, hMiddle]
        exact hNext
      · intro name hFree
        rw [List.forall_mem_cons] at hFree
        rw [hAll name hFree.2, hKept name hFree.1]

/- Quiet code is followed up to its end. -/
theorem leadsOn_of_isQuiet
    (lower : String → String)
    {unit : String}
    (hUnit : Code.IsRoom unit)
    {items : List Code.Item}
    (hQuiet : ∀ text ∈ Code.texts items, IsQuiet text) :
    LeadsOn lower (Code.render unit items) := by
  intro state
  rcases exists_runAt_of_isQuiet lower
      (Code.forall_mem_entries hQuiet 0) unit.length state with
    ⟨next, hNext, -⟩
  refine ⟨next, ?_⟩
  rw [run_render hUnit fun text hText =>
    (hQuiet text hText).isFlush]
  exact hNext

/-
  The beginning of a quiet line: a first word that is not a
  keyword, with something behind it.
-/
def isQuietStart (letters : List Char) : Bool :=
  let word := letters.takeWhile Text.isNamePart
  let rest := letters.dropWhile Text.isNamePart
  !keywords.contains (String.ofList word)
    && !rest.isEmpty
    && letters.head?.all (!Lexis.isRoom ·)

/- What does not begin with a keyword is quiet. -/
theorem deedOf_quiet
    {letters : List Char}
    (hWord :
      String.ofList (letters.takeWhile Text.isNamePart) ∉
        keywords) :
    deedOf letters = .pass ∨
      ∃ name value, deedOf letters = .bind name value := by
  simp only [keywords, List.mem_cons, List.not_mem_nil,
    or_false, not_or] at hWord
  unfold deedOf
  simp only [hWord, if_false]
  split
  · exact Or.inr ⟨_, _, rfl⟩
  · exact Or.inl rfl

/- A first word ends where something else stands behind it. -/
theorem takeWhile_append_of_ne_nil
    {first : List Char}
    (hRest : first.dropWhile Text.isNamePart ≠ [])
    (second : List Char) :
    (first ++ second).takeWhile Text.isNamePart =
      first.takeWhile Text.isNamePart := by
  rw [List.takeWhile_append, if_neg]
  intro hLength
  have hSplit :=
    congrArg List.length
      (List.takeWhile_append_dropWhile
        (p := Text.isNamePart) (l := first))
  rw [List.length_append, hLength] at hSplit
  exact hRest (List.length_eq_zero_iff.mp (by omega))

/- A line with a quiet beginning is quiet. -/
theorem isQuiet_append
    {first : String}
    (hStart : isQuietStart first.toList)
    (second : String) :
    IsQuiet (first ++ second) := by
  simp only [isQuietStart, Bool.and_eq_true, Bool.not_eq_true',
    List.isEmpty_eq_false_iff, List.contains_eq_mem,
    decide_eq_false_iff_not] at hStart
  rcases hStart with ⟨⟨hWord, hRest⟩, hHead⟩
  constructor
  · cases hLetters : first.toList with
    | nil => simp [hLetters] at hRest
    | cons c rest =>
        rw [hLetters] at hHead
        rw [IsFlush, String.toList_append, hLetters]
        exact hHead
  · apply deedOf_quiet
    rw [String.toList_append, takeWhile_append_of_ne_nil hRest]
    exact hWord

/- The same, where two texts stand behind the beginning. -/
theorem isQuiet_around
    {first : String}
    (hStart : isQuietStart first.toList)
    (middle last : String) :
    IsQuiet (first ++ middle ++ last) := by
  rw [String.append_assoc]
  exact isQuiet_append hStart _

/- An empty line is quiet. -/
theorem isQuiet_empty : IsQuiet "" where
  isFlush := rfl
  deed := Or.inl rfl

/- A line that begins in a quiet way is quiet by itself. -/
theorem isQuiet_of_start
    {text : String}
    (hStart : isQuietStart text.toList) :
    IsQuiet text := by
  have hAll := isQuiet_append hStart ""
  rwa [String.append_empty] at hAll

------------------------------------------------------------
-- Assignments and Branches
------------------------------------------------------------

/- A first word ends in front of what is no part of a name. -/
theorem word_spec
    {word : List Char}
    (hWord : word.all Text.isNamePart)
    {c : Char}
    (hEnd : Text.isNamePart c = false)
    (rest : List Char) :
    (word ++ c :: rest).takeWhile Text.isNamePart = word ∧
      (word ++ c :: rest).dropWhile Text.isNamePart =
        c :: rest := by
  have hAll := List.all_eq_true.mp hWord
  rw [List.takeWhile_append_of_pos hAll,
    List.dropWhile_append_of_pos hAll, List.takeWhile_cons,
    List.dropWhile_cons, hEnd]
  exact ⟨List.append_nil word, rfl⟩

/- A name is given what stands behind the sign. -/
theorem deedOf_assignment
    {name : String}
    (hName : name.toList.all Text.isNamePart)
    (hWord : name ∉ keywords)
    (value : String) :
    deedOf (name ++ " = " ++ value).toList =
      .bind name (readText? value.toList) := by
  have hLetters :
      (name ++ " = " ++ value).toList =
        name.toList ++ ' ' :: '=' :: ' ' :: value.toList := by
    simp
  have hSpec :=
    word_spec hName (c := ' ') rfl ('=' :: ' ' :: value.toList)
  simp only [keywords, List.mem_cons, List.not_mem_nil,
    or_false, not_or] at hWord
  rw [hLetters, deedOf, hSpec.1, hSpec.2, String.ofList_toList]
  simp only [hWord, if_false]

/- What a line binds is its first word. -/
theorem Binds.word_eq
    {text name : String}
    (hBinds : Binds text name) :
    String.ofList (text.toList.takeWhile Text.isNamePart) =
      name := by
  rcases hBinds with ⟨value, hDeed⟩
  simp only [deedOf] at hDeed
  split at hDeed
  · cases hDeed
  split at hDeed
  · cases hDeed
  split at hDeed
  · cases hDeed
  split at hDeed
  · cases hDeed
  split at hDeed
  · cases hDeed
    rfl
  · cases hDeed

/- A line with another first word does not bind a name. -/
theorem not_binds_append
    {first name : String}
    (hStart : isQuietStart first.toList)
    (hOther :
      String.ofList (first.toList.takeWhile Text.isNamePart) ≠
        name)
    (second : String) :
    ¬ Binds (first ++ second) name := by
  intro hBinds
  have hWord := hBinds.word_eq
  simp only [isQuietStart, Bool.and_eq_true, Bool.not_eq_true',
    List.isEmpty_eq_false_iff] at hStart
  rw [String.toList_append,
    takeWhile_append_of_ne_nil hStart.1.2] at hWord
  exact hOther hWord

/- A name with an underscore is no keyword. -/
theorem isQuiet_name
    {name : String}
    (hName : Text.isName name)
    (hMark : '_' ∈ name.toList)
    {rest : String}
    (hRest : rest.toList.head?.any (!Text.isNamePart ·)) :
    IsQuiet (name ++ rest) := by
  have hWord : name ∉ keywords := by
    have hPlain :
        ∀ word ∈ keywords, '_' ∉ word.toList := by
      decide
    intro hMem
    exact hPlain name hMem hMark
  unfold Text.isName at hName
  cases hLetters : name.toList with
  | nil => simp [hLetters] at hName
  | cons c others =>
      rw [hLetters, Bool.and_eq_true] at hName
      have hStart := Lexis.isNamePart_of_isNameStart hName.1
      have hAll : name.toList.all Text.isNamePart := by
        rw [hLetters, List.all_cons, hStart, hName.2]
        rfl
      constructor
      · rw [IsFlush, String.toList_append, hLetters]
        change (!Lexis.isRoom c) = true
        rw [Bool.not_eq_true', ← Bool.not_eq_true,
          Lexis.isRoom, Bool.or_eq_true, beq_iff_eq, beq_iff_eq]
        rintro (rfl | rfl)
        · exact absurd hStart (by decide)
        · exact absurd hStart (by decide)
      · apply deedOf_quiet
        cases hEnd : rest.toList with
        | nil => simp [hEnd] at hRest
        | cons d more =>
            have hStop : Text.isNamePart d = false := by
              simpa [hEnd] using hRest
            rw [String.toList_append, hEnd,
              (word_spec hAll hStop more).1,
              String.ofList_toList]
            exact hWord

/- What is compared with a text, in front of the comparison. -/
def operand (name : String) (isLowered : Bool) : String :=
  name ++ (if isLowered then ".lower()" else "")

/- A comparison is read as the condition it was made from. -/
theorem readCondition?_operand
    {name : String}
    (hName : name.toList.all Text.isNamePart)
    (isLowered : Bool)
    (value : String) :
    readCondition?
        (operand name isLowered ++ " == " ++ Literal.text value
          ++ ":").toList =
      some ⟨name, isLowered, value⟩ := by
  have hTested :
      readTested? ((Literal.text value).toList ++ [':']) =
        some value := by
    rw [readTested?, List.getLast?_concat, if_pos rfl,
      List.dropLast_concat, readText?_text]
  cases isLowered with
  | false =>
      have hLetters :
          (operand name false ++ " == " ++ Literal.text value
              ++ ":").toList =
            name.toList ++ ' ' :: '=' :: '=' :: ' ' ::
              ((Literal.text value).toList ++ [':']) := by
        simp [operand]
      have hSpec :=
        word_spec hName (c := ' ') rfl
          ('=' :: '=' :: ' ' ::
            ((Literal.text value).toList ++ [':']))
      rw [hLetters, readCondition?, hSpec.1, hSpec.2,
        String.ofList_toList]
      simp only [hTested, Option.map_some]
  | true =>
      have hLetters :
          (operand name true ++ " == " ++ Literal.text value
              ++ ":").toList =
            name.toList ++ '.' :: (("lower() == ").toList ++
              ((Literal.text value).toList ++ [':'])) := by
        simp [operand]
      have hSpec :=
        word_spec hName (c := '.') rfl
          (("lower() == ").toList ++
            ((Literal.text value).toList ++ [':']))
      rw [hLetters, readCondition?, hSpec.1, hSpec.2,
        String.ofList_toList]
      change (readTested?
        ((Literal.text value).toList ++ [':'])).map _ = _
      rw [hTested, Option.map_some]

/- A branch is opened by a comparison with a text. -/
theorem deedOf_branch
    {word name : String}
    (hWord : word = "if" ∨ word = "elif")
    (hName : name.toList.all Text.isNamePart)
    (isLowered : Bool)
    (value : String) :
    deedOf
        (word ++ " " ++ operand name isLowered ++ " == "
          ++ Literal.text value ++ ":").toList =
      .test (word == "if") (some ⟨name, isLowered, value⟩) := by
  have hLetters :
      (word ++ " " ++ operand name isLowered ++ " == "
          ++ Literal.text value ++ ":").toList =
        word.toList ++ ' ' ::
          (operand name isLowered ++ " == "
            ++ Literal.text value ++ ":").toList := by
    simp
  have hCondition := readCondition?_operand hName isLowered value
  rw [hLetters]
  rcases hWord with rfl | rfl
  · have hSpec :=
      word_spec (show "if".toList.all Text.isNamePart from rfl)
        (show Text.isNamePart ' ' = false from rfl)
        (operand name isLowered ++ " == "
          ++ Literal.text value ++ ":").toList
    rw [deedOf, hSpec.1, hSpec.2, List.drop_one, List.tail_cons,
      hCondition]
    rfl
  · have hSpec :=
      word_spec
        (show "elif".toList.all Text.isNamePart from rfl)
        (show Text.isNamePart ' ' = false from rfl)
        (operand name isLowered ++ " == "
          ++ Literal.text value ++ ":").toList
    rw [deedOf, hSpec.1, hSpec.2, List.drop_one, List.tail_cons,
      hCondition]
    rfl

end Course

end PipelineScript
