import PipelineScript.Number.Digits
import PipelineScript.Toml.Gaps

/-
  Texts in quotes. Double quotes allow escapes, single quotes
  do not, and three quotes allow line breaks.

  Key definitions include:
    * `Toml.readEscape`
    * `Toml.readBasic`
    * `Toml.readLiteral`
    * `Toml.readLongBasic`
    * `Toml.readLongLiteral`
    * `Toml.quotedText`
-/

namespace PipelineScript

namespace Toml

------------------------------------------------------------
-- Characters
------------------------------------------------------------

/- A character that stands for itself inside quotes. -/
def isPlain (c : Char) : Bool :=
  c == '\t' || (0x20 ≤ c.toNat && c.toNat != 0x7F)

/- A character that is written with a single letter. -/
def shortEscape? (c : Char) : Option Char :=
  if c == 'b' then
    some '\x08'
  else if c == 't' then
    some '\t'
  else if c == 'n' then
    some '\n'
  else if c == 'f' then
    some '\x0C'
  else if c == 'r' then
    some '\r'
  else if c == '"' then
    some '"'
  else if c == '\\' then
    some '\\'
  else
    none

/- The character with a code point, unless it is none. -/
def ofCode? (code : Nat) : Option Char :=
  if code.isValidChar then some (Char.ofNat code) else none

/- The character behind so many hexadecimal digits. -/
def readCode
    (count : Nat)
    (cs : List Char) : Option (Char × List Char) :=
  let digits := cs.take count
  if digits.length = count
      ∧ digits.all fun c => (Number.hexValue? c).isSome then
    (ofCode? (Number.valueInBase 16 digits)).map
      fun c => (c, cs.drop count)
  else
    none

/- Reading a code makes a text no longer. -/
theorem length_le_of_readCode
    {count : Nat}
    {cs rest : List Char}
    {c : Char}
    (h : readCode count cs = some (c, rest)) :
    rest.length ≤ cs.length := by
  unfold readCode at h
  dsimp only at h
  split at h
  · obtain ⟨_, _, hMade⟩ := Option.map_eq_some_iff.1 h
    simp only [Prod.mk.injEq] at hMade
    rw [← hMade.2, List.length_drop]
    exact Nat.sub_le _ _
  · simp at h

/- The character written behind a backslash. -/
def readEscape
    (cs : List Char) : Option (Char × List Char) :=
  match cs with
  | [] => none
  | c :: rest =>
      if c == 'u' then
        readCode 4 rest
      else if c == 'U' then
        readCode 8 rest
      else
        (shortEscape? c).map fun d => (d, rest)

/- An escape takes a character. -/
theorem length_lt_of_readEscape
    {cs rest : List Char}
    {c : Char}
    (h : readEscape cs = some (c, rest)) :
    rest.length < cs.length := by
  unfold readEscape at h
  split at h
  · simp at h
  · split at h
    · exact Nat.lt_succ_of_le (length_le_of_readCode h)
    · split at h
      · exact Nat.lt_succ_of_le (length_le_of_readCode h)
      · obtain ⟨_, _, hMade⟩ := Option.map_eq_some_iff.1 h
        simp only [Prod.mk.injEq] at hMade
        rw [← hMade.2]
        exact Nat.lt_succ_self _

/- A character in front of what was read behind it. -/
def prepend
    (c : Char)
    (read : Option (List Char × List Char)) :
    Option (List Char × List Char) :=
  read.map fun (content, rest) => (c :: content, rest)

/- What follows was read behind the character. -/
theorem exists_of_prepend
    {c : Char}
    {read : Option (List Char × List Char)}
    {content rest : List Char}
    (h : prepend c read = some (content, rest)) :
    ∃ others, read = some (others, rest) := by
  obtain ⟨⟨others, after⟩, hRead, hMade⟩ :=
    Option.map_eq_some_iff.1 h
  simp only [Prod.mk.injEq] at hMade
  exact ⟨others, by rw [hRead, hMade.2]⟩

------------------------------------------------------------
-- Texts on One Line
------------------------------------------------------------

/- A text behind its double quote, up to the next one. -/
def readBasic
    (cs : List Char) : Option (List Char × List Char) :=
  match cs with
  | [] => none
  | c :: rest =>
      if c == '"' then
        some ([], rest)
      else if c == '\\' then
        match h : readEscape rest with
        | none => none
        | some (d, tail) =>
            have : tail.length < rest.length :=
              length_lt_of_readEscape h
            prepend d (readBasic tail)
      else if isPlain c then
        prepend c (readBasic rest)
      else
        none
termination_by cs.length

/- A text takes a character. -/
theorem length_lt_of_readBasic
    {cs content rest : List Char}
    (h : readBasic cs = some (content, rest)) :
    rest.length < cs.length := by
  fun_induction readBasic cs generalizing content with
  | case1 => simp at h
  | case2 c tail hQuote =>
      simp only [Option.some.injEq, Prod.mk.injEq] at h
      rw [← h.2]
      exact Nat.lt_succ_self _
  | case3 => simp at h
  | case4 c tail hQuote hEscape d after hRead hLt ih =>
      obtain ⟨others, hOthers⟩ := exists_of_prepend h
      have := ih hOthers
      simp only [List.length_cons]
      omega
  | case5 c tail hQuote hEscape hPlain ih =>
      obtain ⟨others, hOthers⟩ := exists_of_prepend h
      exact Nat.lt_succ_of_lt (ih hOthers)
  | case6 => simp at h

/- A text behind its single quote, up to the next one. -/
def readLiteral
    (cs : List Char) : Option (List Char × List Char) :=
  match cs with
  | [] => none
  | c :: rest =>
      if c == '\x27' then
        some ([], rest)
      else if isPlain c then
        prepend c (readLiteral rest)
      else
        none

/- A text in single quotes takes a character. -/
theorem length_lt_of_readLiteral
    {cs content rest : List Char}
    (h : readLiteral cs = some (content, rest)) :
    rest.length < cs.length := by
  induction cs generalizing content with
  | nil => simp [readLiteral] at h
  | cons c cs ih =>
      unfold readLiteral at h
      split at h
      · simp only [Option.some.injEq, Prod.mk.injEq] at h
        rw [← h.2]
        exact Nat.lt_succ_self _
      · split at h
        · obtain ⟨others, hOthers⟩ := exists_of_prepend h
          exact Nat.lt_succ_of_lt (ih hOthers)
        · simp at h

------------------------------------------------------------
-- Texts on Several Lines
------------------------------------------------------------

/-
  What closing quotes leave over. Up to two quotes in front of
  the three that close a text belong to it.
-/
def closing
    (quote : Char)
    (behindThree : List Char) : List Char × List Char :=
  match behindThree with
  | c :: d :: rest =>
      if c == quote && d == quote then
        ([quote, quote], rest)
      else if c == quote then
        ([quote], d :: rest)
      else
        ([], behindThree)
  | [c] => if c == quote then ([quote], []) else ([], [c])
  | [] => ([], [])

/- Closing quotes make a text no longer. -/
theorem length_closing_le
    (quote : Char)
    (cs : List Char) :
    (closing quote cs).2.length ≤ cs.length := by
  unfold closing
  split
  · split
    · simp only [List.length_cons]
      omega
    · split
      · exact Nat.le_succ _
      · exact Nat.le_refl _
  · split
    · exact Nat.zero_le _
    · exact Nat.le_refl _
  · exact Nat.le_refl _

/- What follows three quotes, if they are at the front. -/
def threeQuotes?
    (quote : Char)
    (cs : List Char) : Option (List Char) :=
  match cs with
  | c :: d :: e :: rest =>
      if c == quote && d == quote && e == quote then
        some rest
      else
        none
  | _ => none

/- Three quotes take three characters. -/
theorem length_of_threeQuotes
    {quote : Char}
    {cs rest : List Char}
    (h : threeQuotes? quote cs = some rest) :
    rest.length + 3 = cs.length := by
  unfold threeQuotes? at h
  split at h
  · split at h
    · simp only [Option.some.injEq] at h
      subst h
      rfl
    · simp at h
  · simp at h

/-
  What follows a backslash at the end of a line: the break and
  all blanks and breaks behind it.
-/
def skipFold? (cs : List Char) : Option (List Char) :=
  (lineBreak? (spaces.skip cs)).map skipBlankLines
where
  /- What follows blanks and line breaks. -/
  skipBlankLines : List Char → List Char
    | '\r' :: '\n' :: rest => skipBlankLines rest
    | c :: rest =>
        if isSpace c || c == '\n' then
          skipBlankLines rest
        else
          c :: rest
    | [] => []

/- Blanks and line breaks make a text no longer. -/
theorem length_skipBlankLines_le (cs : List Char) :
    (skipFold?.skipBlankLines cs).length ≤ cs.length := by
  fun_induction skipFold?.skipBlankLines cs with
  | case1 rest ih =>
      simp only [List.length_cons]
      omega
  | case2 c rest _ hBlank ih => exact Nat.le_succ_of_le ih
  | case3 => exact Nat.le_refl _
  | case4 => exact Nat.le_refl _

/- A folded line makes a text no longer. -/
theorem length_le_of_skipFold
    {cs rest : List Char}
    (h : skipFold? cs = some rest) :
    rest.length ≤ cs.length := by
  obtain ⟨after, hBreak, hMade⟩ := Option.map_eq_some_iff.1 h
  rw [← hMade]
  exact Nat.le_trans (length_skipBlankLines_le after)
    (Nat.le_trans (Nat.le_of_lt (length_lt_of_lineBreak hBreak))
      (spaces.shrinks cs))

/- A text behind three double quotes, up to the next three. -/
def readLongBasic
    (cs : List Char) : Option (List Char × List Char) :=
  match cs with
  | [] => none
  | c :: rest =>
      match threeQuotes? '"' (c :: rest) with
      | some after => some (closing '"' after)
      | none =>
          if c == '\\' then
            match hFold : skipFold? rest with
            | some after =>
                have : after.length < rest.length + 1 :=
                  Nat.lt_succ_of_le (length_le_of_skipFold hFold)
                readLongBasic after
            | none =>
                match hEscape : readEscape rest with
                | none => none
                | some (d, tail) =>
                    have : tail.length < rest.length + 1 :=
                      Nat.lt_succ_of_lt
                        (length_lt_of_readEscape hEscape)
                    prepend d (readLongBasic tail)
          else if isPlain c then
            prepend c (readLongBasic rest)
          else
            match hBreak : lineBreak? (c :: rest) with
            | none => none
            | some after =>
                have : after.length < rest.length + 1 :=
                  length_lt_of_lineBreak hBreak
                prepend '\n' (readLongBasic after)
termination_by cs.length

/- Closing quotes behind three quotes leave less. -/
theorem length_lt_of_closing
    {quote : Char}
    {cs after content rest : List Char}
    (hThree : threeQuotes? quote cs = some after)
    (h : some (closing quote after) = some (content, rest)) :
    rest.length < cs.length := by
  simp only [Option.some.injEq] at h
  have hClose := length_closing_le quote after
  have hLength := length_of_threeQuotes hThree
  rw [h] at hClose
  simp only at hClose
  omega

/- A text in three double quotes takes a character. -/
theorem length_lt_of_readLongBasic
    {cs content rest : List Char}
    (h : readLongBasic cs = some (content, rest)) :
    rest.length < cs.length := by
  fun_induction readLongBasic cs generalizing content with
  | case1 => simp at h
  | case2 c tail after hThree => exact length_lt_of_closing hThree h
  | case3 c tail hThree hSlash after hFold hLt ih =>
      exact Nat.lt_trans (ih h) hLt
  | case4 => simp at h
  | case5 c tail hThree hSlash hFold d after hEscape hLt ih =>
      obtain ⟨others, hOthers⟩ := exists_of_prepend h
      exact Nat.lt_trans (ih hOthers) hLt
  | case6 c tail hThree hSlash hPlain ih =>
      obtain ⟨others, hOthers⟩ := exists_of_prepend h
      exact Nat.lt_succ_of_lt (ih hOthers)
  | case7 => simp at h
  | case8 c tail hThree hSlash hPlain after hBreak hLt ih =>
      obtain ⟨others, hOthers⟩ := exists_of_prepend h
      exact Nat.lt_trans (ih hOthers) hLt

/- A text behind three single quotes, up to the next three. -/
def readLongLiteral
    (cs : List Char) : Option (List Char × List Char) :=
  match cs with
  | [] => none
  | c :: rest =>
      match threeQuotes? '\x27' (c :: rest) with
      | some after => some (closing '\x27' after)
      | none =>
          if isPlain c then
            prepend c (readLongLiteral rest)
          else
            match hBreak : lineBreak? (c :: rest) with
            | none => none
            | some after =>
                have : after.length < rest.length + 1 :=
                  length_lt_of_lineBreak hBreak
                prepend '\n' (readLongLiteral after)
termination_by cs.length

/- A text in three single quotes takes a character. -/
theorem length_lt_of_readLongLiteral
    {cs content rest : List Char}
    (h : readLongLiteral cs = some (content, rest)) :
    rest.length < cs.length := by
  fun_induction readLongLiteral cs generalizing content with
  | case1 => simp at h
  | case2 c tail after hThree => exact length_lt_of_closing hThree h
  | case3 c tail hThree hPlain ih =>
      obtain ⟨others, hOthers⟩ := exists_of_prepend h
      exact Nat.lt_succ_of_lt (ih hOthers)
  | case4 => simp at h
  | case5 c tail hThree hPlain after hBreak hLt ih =>
      obtain ⟨others, hOthers⟩ := exists_of_prepend h
      exact Nat.lt_trans (ih hOthers) hLt

------------------------------------------------------------
-- Texts of All Kinds
------------------------------------------------------------

/- A break right behind the opening quotes does not count. -/
def dropFirstBreak (cs : List Char) : List Char :=
  (lineBreak? cs).getD cs

/- Dropping the first break makes a text no longer. -/
theorem length_dropFirstBreak_le (cs : List Char) :
    (dropFirstBreak cs).length ≤ cs.length := by
  unfold dropFirstBreak
  cases h : lineBreak? cs with
  | none => exact Nat.le_refl _
  | some rest => exact Nat.le_of_lt (length_lt_of_lineBreak h)

/- A text in one kind of quotes, on one or several lines. -/
def inQuotes
    (quote : Char)
    (short long :
      List Char → Option (List Char × List Char))
    (hShort :
      ∀ {cs content rest},
        short cs = some (content, rest) →
          rest.length < cs.length)
    (hLong :
      ∀ {cs content rest},
        long cs = some (content, rest) →
          rest.length < cs.length) : Reader (List Char) where
  run := fun cs =>
    match threeQuotes? quote cs with
    | some rest => long (dropFirstBreak rest)
    | none =>
        match cs with
        | [] => none
        | c :: rest => if c == quote then short rest else none
  shrinks := by
    intro cs rest value h
    split at h
    · next inner hThree =>
        have hLength := length_of_threeQuotes hThree
        have hBreak := length_dropFirstBreak_le inner
        have := hLong h
        omega
    · split at h
      · simp at h
      · split at h
        · exact Nat.lt_succ_of_lt (hShort h)
        · simp at h

/- A text in double quotes. -/
def basicText : Reader (List Char) :=
  inQuotes '"' readBasic readLongBasic length_lt_of_readBasic
    length_lt_of_readLongBasic

/- A text in single quotes. -/
def literalText : Reader (List Char) :=
  inQuotes '\x27' readLiteral readLongLiteral
    length_lt_of_readLiteral length_lt_of_readLongLiteral

/- A text in quotes of either kind. -/
def quotedText : Reader String :=
  (basicText.orElse literalText).map String.ofList

end Toml

end PipelineScript
