import PipelineScript.Proofs.Toml.Readers
import PipelineScript.Toml.Printer
import PipelineScript.Toml.Quoted

/-
  Texts that were written in any quotes are read back, and the
  quotes are chosen so that they show the text.

  In double quotes every character is written so that it is
  read back by itself. In three quotes of a kind, up to two of
  them may stand in front of those that close the text.

  Key definitions include:
    * `Toml.Shows`

  Key theorems include:
    * `Toml.readBasic_flatMap`
    * `Toml.readLongBasic_escapedLong`
    * `Toml.readLongLiteral_append`
    * `Toml.quotedText_quotedAs`
-/

namespace PipelineScript

namespace Toml

variable {cs text rest : List Char} {c quote : Char}

------------------------------------------------------------
-- Escapes
------------------------------------------------------------

/-
  Double quotes show a character: as it is, or behind a
  backslash that does not fold a line.
-/
inductive Shows (c : Char) : List Char → Prop
  | plain
      (hPlain : isPlain c)
      (hQuote : c ≠ '"')
      (hSlash : c ≠ '\\') : Shows c [c]
  | escape
      {letter : Char}
      {tail : List Char}
      (hSpace : isSpace letter = false)
      (hBreak : ∀ rest, lineBreak? (letter :: rest) = none)
      (hRead :
        ∀ rest,
          readEscape (letter :: (tail ++ rest)) =
            some (c, rest)) :
      Shows c ('\\' :: letter :: tail)

/- What is not a control character is shown as it is. -/
theorem isPlain_of_not_isUnprinted
    (hPrinted : isUnprinted c = false)
    (hBreak : c ≠ '\n') :
    isPlain c := by
  unfold isUnprinted at hPrinted
  simp only [Bool.or_eq_false_iff, Bool.and_eq_false_iff,
    decide_eq_false_iff_not, bne_eq_false_iff_eq,
    beq_eq_false_iff_ne] at hPrinted
  unfold isPlain
  simp only [Bool.or_eq_true, beq_iff_eq, Bool.and_eq_true,
    decide_eq_true_eq, bne_iff_ne]
  rcases hPrinted with ⟨(hHigh | hTab) | hLine, hDelete⟩
  · exact Or.inr ⟨Nat.le_of_not_lt hHigh, hDelete⟩
  · exact Or.inl hTab
  · exact absurd hLine hBreak

/- A control character has four digits that stand for it. -/
theorem exists_codeEscape
    (hUnprinted : isUnprinted c) :
    ∃ digits,
      codeEscape c = '\\' :: 'u' :: digits ∧
        digits.length = 4 ∧
        (digits.all fun d => (Number.hexValue? d).isSome) ∧
        Number.valueInBase 16 digits = c.toNat := by
  have hAll :
      ∀ n < 0x80,
        let digits :=
          Text.padLeft 4
            ((Text.hexDigits n).map Char.toUpper)
        digits.length = 4 ∧
          (digits.all fun d => (Number.hexValue? d).isSome) ∧
          Number.valueInBase 16 digits = n := by
    decide
  have hLess : c.toNat < 0x80 := by
    unfold isUnprinted at hUnprinted
    simp only [Bool.or_eq_true, Bool.and_eq_true,
      decide_eq_true_eq, beq_iff_eq] at hUnprinted
    omega
  exact ⟨_, rfl, hAll c.toNat hLess⟩

/- A control character is read back from its code. -/
theorem codeEscape_shows
    (hUnprinted : isUnprinted c) :
    Shows c (codeEscape c) := by
  rcases exists_codeEscape hUnprinted with
    ⟨digits, hText, hLength, hDigits, hValue⟩
  rw [hText]
  refine .escape (by decide) (fun _ => rfl) fun rest => ?_
  have hCode : ofCode? c.toNat = some c := by
    have hValid : c.toNat.isValidChar := c.valid
    rw [ofCode?, if_pos hValid, Char.ofNat_toNat]
  rw [readEscape, if_pos (by rfl), readCode,
    List.take_left' hLength, List.drop_left' hLength]
  simp [hLength, hDigits, hValue, hCode]

/- A character that has a letter is read back from it. -/
theorem letter_shows
    {letter : Char}
    (hSpace : isSpace letter = false)
    (hBreak : ∀ rest, lineBreak? (letter :: rest) = none)
    (hRead :
      ∀ rest, readEscape (letter :: rest) = some (c, rest)) :
    Shows c ['\\', letter] :=
  .escape hSpace hBreak hRead

/- A character that is no quote and no break is shown. -/
theorem escapedChar_shows
    (hQuote : c ≠ '"')
    (hBreak : c ≠ '\n') :
    Shows c (escapedChar c) := by
  unfold escapedChar
  split
  · next hBack =>
      rw [beq_iff_eq.mp hBack]
      exact letter_shows rfl (fun _ => rfl) fun _ => rfl
  split
  · next hTab =>
      rw [beq_iff_eq.mp hTab]
      exact letter_shows rfl (fun _ => rfl) fun _ => rfl
  split
  · next hFeed =>
      rw [beq_iff_eq.mp hFeed]
      exact letter_shows rfl (fun _ => rfl) fun _ => rfl
  split
  · next hReturn =>
      rw [beq_iff_eq.mp hReturn]
      exact letter_shows rfl (fun _ => rfl) fun _ => rfl
  split
  · next hSlash =>
      rw [beq_iff_eq.mp hSlash]
      exact letter_shows rfl (fun _ => rfl) fun _ => rfl
  split
  · next hUnprinted => exact codeEscape_shows hUnprinted
  · next hSlash hPrinted =>
      exact .plain
        (isPlain_of_not_isUnprinted
          (Bool.eq_false_iff.mpr hPrinted) hBreak)
        hQuote (by simpa using hSlash)

/- On one line every character is shown. -/
theorem escapedBasic_shows (c : Char) :
    Shows c (escapedBasic c) := by
  unfold escapedBasic
  split
  · next hQuote =>
      rw [beq_iff_eq.mp hQuote]
      exact letter_shows rfl (fun _ => rfl) fun _ => rfl
  split
  · next hBreak =>
      rw [beq_iff_eq.mp hBreak]
      exact letter_shows rfl (fun _ => rfl) fun _ => rfl
  · next hQuote hBreak =>
      exact escapedChar_shows (by simpa using hQuote)
        (by simpa using hBreak)

------------------------------------------------------------
-- Double Quotes
------------------------------------------------------------

/- A character that is shown is read back by itself. -/
theorem readBasic_shows
    (hShows : Shows c text)
    (rest : List Char) :
    readBasic (text ++ rest) = prepend c (readBasic rest) := by
  cases hShows with
  | plain hPlain hQuote hSlash =>
      rw [List.singleton_append, readBasic]
      simp [hPlain, hQuote, hSlash]
  | @escape letter tail hSpace hBreak hRead =>
      rw [List.cons_append, List.cons_append, readBasic,
        if_neg (by decide), if_pos (by rfl)]
      split
      · next hNone => simp [hRead] at hNone
      · next d after hSome =>
          rw [hRead, Option.some.injEq, Prod.mk.injEq] at hSome
          rcases hSome with ⟨rfl, rfl⟩
          rfl

/- A text is read back up to its closing quote. -/
theorem readBasic_flatMap (cs rest : List Char) :
    readBasic (cs.flatMap escapedBasic ++ '"' :: rest) =
      some (cs, rest) := by
  induction cs with
  | nil => simp [readBasic]
  | cons c cs ih =>
      rw [List.flatMap_cons, List.append_assoc,
        readBasic_shows (escapedBasic_shows c), ih]
      rfl

------------------------------------------------------------
-- Single Quotes
------------------------------------------------------------

/- A text of plain characters is read back as it is. -/
theorem readLiteral_append
    (hPlain : ∀ c ∈ cs, isPlain c ∧ c ≠ '\x27')
    (rest : List Char) :
    readLiteral (cs ++ '\x27' :: rest) = some (cs, rest) := by
  induction cs with
  | nil => simp [readLiteral]
  | cons c cs ih =>
      rw [List.forall_mem_cons] at hPlain
      rw [List.cons_append, readLiteral, ih hPlain.2]
      simp [hPlain.1, prepend]

------------------------------------------------------------
-- Three Quotes
------------------------------------------------------------

/- Three quotes do not begin with anything else. -/
theorem threeQuotes_of_first_ne
    (hFirst : c ≠ quote)
    (rest : List Char) :
    threeQuotes? quote (c :: rest) = none := by
  match rest with
  | [] => rfl
  | [_] => rfl
  | _ :: _ :: _ => simp [threeQuotes?, hFirst]

/- Nor are they followed by anything else too early. -/
theorem threeQuotes_of_second_ne
    {second : Char}
    (hSecond : second ≠ quote)
    (first : Char)
    (rest : List Char) :
    threeQuotes? quote (first :: second :: rest) = none := by
  match rest with
  | [] => rfl
  | _ :: _ => simp [threeQuotes?, hSecond]

/- The third must be a quote too. -/
theorem threeQuotes_of_third_ne
    {third : Char}
    (hThird : third ≠ quote)
    (first second : Char)
    (rest : List Char) :
    threeQuotes? quote (first :: second :: third :: rest) =
      none := by
  simp [threeQuotes?, hThird]

/- At most two quotes in front of three belong to the text. -/
theorem closing_replicate
    {count : Nat}
    (hCount : count ≤ 2)
    (hQuote : quote ≠ '\n')
    (rest : List Char) :
    (threeQuotes? quote
        (List.replicate count quote
          ++ quote :: quote :: quote :: '\n' :: rest)).map
        (closing quote) =
      some (List.replicate count quote, '\n' :: rest) := by
  have hNext : ('\n' == quote) = false := by
    simpa using hQuote.symm
  match count with
  | 0 =>
      cases rest <;> simp [threeQuotes?, closing, hNext]
  | 1 => simp [threeQuotes?, closing, hNext, List.replicate]
  | 2 => simp [threeQuotes?, closing, List.replicate]

/- A text ends where three quotes close it. -/
theorem readLongBasic_of_closing
    {content : List Char}
    (hClosing :
      (threeQuotes? '"' cs).map (closing '"') =
        some (content, rest)) :
    readLongBasic cs = some (content, rest) := by
  rcases Option.map_eq_some_iff.mp hClosing with
    ⟨after, hThree, hContent⟩
  cases cs with
  | nil => simp [threeQuotes?] at hThree
  | cons c cs => simp [readLongBasic, hThree, hContent]

/- A quote that closes nothing stands for itself. -/
theorem readLongBasic_quote
    (hNone : threeQuotes? '"' ('"' :: rest) = none) :
    readLongBasic ('"' :: rest) =
      prepend '"' (readLongBasic rest) := by
  rw [readLongBasic, hNone]
  simp [isPlain]

/- So does a line break. -/
theorem readLongBasic_break (rest : List Char) :
    readLongBasic ('\n' :: rest) =
      prepend '\n' (readLongBasic rest) := by
  rw [readLongBasic,
    threeQuotes_of_first_ne (by decide)]
  rfl

/- A character that is shown is read back by itself. -/
theorem readLongBasic_shows
    (hShows : Shows c text)
    (rest : List Char) :
    readLongBasic (text ++ rest) =
      prepend c (readLongBasic rest) := by
  cases hShows with
  | plain hPlain hQuote hSlash =>
      rw [List.singleton_append, readLongBasic,
        threeQuotes_of_first_ne hQuote]
      simp [hPlain, hSlash]
  | @escape letter tail hSpace hBreak hRead =>
      have hFold : skipFold? (letter :: (tail ++ rest)) = none := by
        have hStart :
            spaces.skip (letter :: (tail ++ rest)) =
              letter :: (tail ++ rest) :=
          List.dropWhile_cons_of_neg (by simp [hSpace])
        rw [skipFold?, hStart, hBreak]
        rfl
      rw [List.cons_append, List.cons_append, readLongBasic,
        threeQuotes_of_first_ne (by decide)]
      dsimp only
      rw [if_pos (by rfl)]
      split
      · next after hSome => simp [hFold] at hSome
      · split
        · next hNone => simp [hRead] at hNone
        · next d after hSome =>
            rw [hRead, Option.some.injEq,
              Prod.mk.injEq] at hSome
            rcases hSome with ⟨rfl, rfl⟩
            rfl

/- What is shown begins with no quote. -/
theorem exists_cons_of_shows
    (hShows : Shows c text) :
    ∃ first tail, text = first :: tail ∧ first ≠ '"' ∧
      isPlain first := by
  cases hShows with
  | plain hPlain hQuote _ => exact ⟨_, _, rfl, hQuote, hPlain⟩
  | escape => exact ⟨_, _, rfl, by decide, by decide⟩

/-
  What is written between three double quotes begins with a
  quote only if the text does, and if two do not stand before.
-/
theorem exists_cons_escapedLong
    {quotes : Nat}
    (hOther : c ≠ '"' ∨ quotes = 2)
    (cs : List Char) :
    ∃ first tail,
      escapedLong quotes (c :: cs) = first :: tail ∧
        first ≠ '"' := by
  unfold escapedLong
  split
  · next hQuote =>
      have hTwo := hOther.resolve_left
        (not_not_intro (beq_iff_eq.mp hQuote))
      rw [if_pos (by simp [hTwo])]
      exact ⟨_, _, rfl, by decide⟩
  · next hQuote =>
      split
      · exact ⟨_, _, rfl, by decide⟩
      · next hBreak =>
          rcases exists_cons_of_shows
              (escapedChar_shows (by simpa using hQuote)
                (by simpa using hBreak)) with
            ⟨first, tail, hText, hFirst, -⟩
          rw [hText]
          exact ⟨_, _, rfl, hFirst⟩

/- Three double quotes at the end of a line. -/
def endOfLong (rest : List Char) : List Char :=
  '"' :: '"' :: '"' :: '\n' :: rest

/- A quote is written as it is if there are not two before. -/
theorem escapedLong_quote
    {quotes : Nat}
    (hQuotes : quotes ≤ 1)
    (cs : List Char) :
    escapedLong quotes ('"' :: cs) =
      '"' :: escapedLong (quotes + 1) cs := by
  have hTwo : quotes ≠ 2 := by omega
  rw [escapedLong, if_pos (by rfl), if_neg (by simp [hTwo])]

/-
  A quote belongs to the text if the rest of the text is read
  back, even where it stands in front of those that close it.
-/
theorem readLongBasic_quote_escapedLong
    {quotes : Nat}
    (hQuotes : quotes ≤ 1)
    (hRead :
      readLongBasic
          (escapedLong (quotes + 1) cs ++ endOfLong rest) =
        some (cs, '\n' :: rest)) :
    readLongBasic
        ('"' :: (escapedLong (quotes + 1) cs
          ++ endOfLong rest)) =
      some ('"' :: cs, '\n' :: rest) := by
  have hGoesOn
      (hNone :
        threeQuotes? '"'
            ('"' :: (escapedLong (quotes + 1) cs
              ++ endOfLong rest)) =
          none) :
      readLongBasic
          ('"' :: (escapedLong (quotes + 1) cs
            ++ endOfLong rest)) =
        some ('"' :: cs, '\n' :: rest) := by
    rw [readLongBasic_quote hNone, hRead]
    rfl
  -- At most two quotes stand in front of the last three.
  rcases cs with _ | ⟨d, cs⟩
  · exact readLongBasic_of_closing
      (closing_replicate (show 1 ≤ 2 by decide) (by decide)
        rest)
  by_cases hOther : d ≠ '"' ∨ quotes + 1 = 2
  · rcases exists_cons_escapedLong hOther cs with
      ⟨first, tail, hText, hFirst⟩
    apply hGoesOn
    rw [hText]
    exact threeQuotes_of_second_ne hFirst _ _
  · rw [not_or, Decidable.not_not] at hOther
    rcases hOther with ⟨rfl, hTwo⟩
    have hNone : quotes = 0 := by omega
    subst hNone
    rw [escapedLong_quote (Nat.le_refl 1)] at hGoesOn ⊢
    rcases cs with _ | ⟨e, cs⟩
    · exact readLongBasic_of_closing
        (closing_replicate (Nat.le_refl 2) (by decide) rest)
    · rcases exists_cons_escapedLong (Or.inr rfl) cs with
        ⟨first, tail, hText, hFirst⟩
      apply hGoesOn
      rw [hText]
      exact threeQuotes_of_third_ne hFirst _ _ _

/-
  A text in three double quotes is read back, with at most two
  quotes of it in front.
-/
theorem readLongBasic_escapedLong
    {quotes : Nat}
    (hQuotes : quotes ≤ 2)
    (cs rest : List Char) :
    readLongBasic (escapedLong quotes cs ++ endOfLong rest) =
      some (cs, '\n' :: rest) := by
  induction cs generalizing quotes with
  | nil =>
      exact readLongBasic_of_closing
        (closing_replicate (Nat.zero_le 2) (by decide) rest)
  | cons c cs ih =>
      by_cases hQuote : c = '"'
      · subst hQuote
        by_cases hTwo : quotes = 2
        · have hShows : Shows '"' ['\\', '"'] :=
            letter_shows rfl (fun _ => rfl) fun _ => rfl
          have hThird :
              escapedLong quotes ('"' :: cs) =
                ['\\', '"'] ++ escapedLong 0 cs := by
            rw [escapedLong, if_pos (by rfl),
              if_pos (by simp [hTwo])]
            rfl
          rw [hThird, List.append_assoc,
            readLongBasic_shows hShows, ih (Nat.zero_le 2)]
          rfl
        · have hOne : quotes ≤ 1 := by omega
          rw [escapedLong_quote hOne]
          exact readLongBasic_quote_escapedLong hOne
            (ih (Nat.succ_le_succ hOne))
      · rw [escapedLong, if_neg (by simpa using hQuote)]
        by_cases hBreak : c = '\n'
        · rw [if_pos (by simp [hBreak]), hBreak,
            List.cons_append, readLongBasic_break,
            ih (Nat.zero_le 2)]
          rfl
        · rw [if_neg (by simpa using hBreak), List.append_assoc,
            readLongBasic_shows (escapedChar_shows hQuote hBreak),
            ih (Nat.zero_le 2)]
          rfl

/- A character that closes nothing is read as it is. -/
theorem readLongLiteral_cons
    (hNone : threeQuotes? '\x27' (c :: rest) = none)
    (hPlain : isPlain c ∨ c = '\n') :
    readLongLiteral (c :: rest) =
      prepend c (readLongLiteral rest) := by
  rw [readLongLiteral, hNone]
  rcases hPlain with hPlain | rfl
  · simp [hPlain]
  · rfl

/- A text ends where three single quotes close it. -/
theorem readLongLiteral_of_closing
    {content : List Char}
    (hClosing :
      (threeQuotes? '\x27' cs).map (closing '\x27') =
        some (content, rest)) :
    readLongLiteral cs = some (content, rest) := by
  rcases Option.map_eq_some_iff.mp hClosing with
    ⟨after, hThree, hContent⟩
  cases cs with
  | nil => simp [threeQuotes?] at hThree
  | cons c cs => simp [readLongLiteral, hThree, hContent]

/- What has no three marks in a row has none further behind. -/
theorem hasTriple_of_cons
    (hTriple : hasTriple quote (c :: cs) = false) :
    hasTriple quote cs = false := by
  match cs with
  | [] => rfl
  | [_] => rfl
  | _ :: _ :: _ =>
      rw [hasTriple, Bool.or_eq_false_iff] at hTriple
      exact hTriple.2

/-
  A text in three single quotes is read back if it has no
  three of them in a row.
-/
theorem readLongLiteral_append
    (hPlain : ∀ c ∈ cs, isPlain c ∨ c = '\n')
    (hTriple : hasTriple '\x27' cs = false)
    (rest : List Char) :
    readLongLiteral
        (cs ++ '\x27' :: '\x27' :: '\x27' :: '\n' :: rest) =
      some (cs, '\n' :: rest) := by
  induction cs with
  | nil =>
      exact readLongLiteral_of_closing
        (closing_replicate (Nat.zero_le 2) (by decide) rest)
  | cons c cs ih =>
      rw [List.forall_mem_cons] at hPlain
      have hRead := ih hPlain.2 (hasTriple_of_cons hTriple)
      have hGoesOn
          (hNone :
            threeQuotes? '\x27'
                (c :: (cs ++ '\x27' :: '\x27' :: '\x27' :: '\n'
                  :: rest)) =
              none) :
          readLongLiteral
              (c :: (cs ++ '\x27' :: '\x27' :: '\x27' :: '\n'
                :: rest)) =
            some (c :: cs, '\n' :: rest) := by
        rw [readLongLiteral_cons hNone hPlain.1, hRead]
        rfl
      rw [List.cons_append]
      by_cases hFirst : c = '\x27'
      · subst hFirst
        -- At most two quotes stand in front of the last three.
        rcases cs with _ | ⟨d, cs⟩
        · exact readLongLiteral_of_closing
            (closing_replicate (show 1 ≤ 2 by decide)
              (by decide) rest)
        by_cases hSecond : d = '\x27'
        · subst hSecond
          rcases cs with _ | ⟨e, cs⟩
          · exact readLongLiteral_of_closing
              (closing_replicate (Nat.le_refl 2) (by decide)
                rest)
          · have hThird : e ≠ '\x27' := by
              rintro rfl
              simp [hasTriple] at hTriple
            exact hGoesOn (threeQuotes_of_third_ne hThird _ _ _)
        · exact hGoesOn (threeQuotes_of_second_ne hSecond _ _)
      · exact hGoesOn (threeQuotes_of_first_ne hFirst _)

------------------------------------------------------------
-- Quotes of a Kind
------------------------------------------------------------

variable
  {short long : List Char → Option (List Char × List Char)}
  {hShort :
    ∀ {cs content rest},
      short cs = some (content, rest) →
        rest.length < cs.length}
  {hLong :
    ∀ {cs content rest},
      long cs = some (content, rest) →
        rest.length < cs.length}

/- A text behind one quote is on one line. -/
theorem inQuotes_short
    (hNone : threeQuotes? quote (quote :: cs) = none) :
    (inQuotes quote short long hShort hLong).run
        (quote :: cs) =
      short cs := by
  simp [inQuotes, hNone]

/- A text behind three quotes may be on several lines. -/
theorem inQuotes_long (cs : List Char) :
    (inQuotes quote short long hShort hLong).run
        (quote :: quote :: quote :: cs) =
      long (dropFirstBreak cs) := by
  simp [inQuotes, threeQuotes?]

/- What begins with something else is in no such quotes. -/
theorem inQuotes_other
    (hFirst : c ≠ quote)
    (cs : List Char) :
    (inQuotes quote short long hShort hLong).run (c :: cs) =
      none := by
  simp [inQuotes, threeQuotes_of_first_ne hFirst, hFirst]

/- A plain character begins no line break. -/
theorem lineBreak_of_isPlain
    (hPlain : isPlain c)
    (rest : List Char) :
    lineBreak? (c :: rest) = none := by
  unfold lineBreak?
  split
  · next hSame =>
      rw [(List.cons.inj hSame).1] at hPlain
      exact absurd hPlain (by decide)
  · next hSame =>
      rw [(List.cons.inj hSame).1] at hPlain
      exact absurd hPlain (by decide)
  · rfl

/- The break in front of a text on several lines is dropped. -/
theorem dropFirstBreak_leadingBreak
    {body : List Char}
    (hBody : '\n' ∉ cs → lineBreak? body = none) :
    dropFirstBreak (leadingBreak cs ++ body) = body := by
  unfold leadingBreak
  by_cases hBreak : '\n' ∈ cs
  · rw [if_pos (by simpa using hBreak)]
    rfl
  · rw [if_neg (by simpa using hBreak), List.nil_append,
      dropFirstBreak, hBody hBreak]
    rfl

------------------------------------------------------------
-- Any Quotes
------------------------------------------------------------

/- Characters that all can be shown are plain or breaks. -/
theorem isPlain_of_any_isUnprinted
    (hPrinted : cs.any isUnprinted = false) :
    ∀ c ∈ cs, isPlain c ∨ c = '\n' := by
  intro c hMem
  by_cases hBreak : c = '\n'
  · exact Or.inr hBreak
  · rw [List.any_eq_false] at hPrinted
    exact Or.inl (isPlain_of_not_isUnprinted
      (Bool.eq_false_iff.mpr (hPrinted c hMem)) hBreak)

/- A text in single quotes is plain and has none of them. -/
theorem of_quotingOf_literal
    (hQuoting : quotingOf cs = .literal) :
    cs ≠ [] ∧ ∀ c ∈ cs, isPlain c ∧ c ≠ '\x27' := by
  refine ⟨by rintro rfl; exact absurd hQuoting (by decide), ?_⟩
  unfold quotingOf at hQuoting
  split at hQuoting
  · split at hQuoting
    · exact absurd hQuoting (by decide)
    · exact absurd hQuoting (by decide)
  split at hQuoting
  · exact absurd hQuoting (by decide)
  split at hQuoting
  · next hPrinted _ hFree =>
      simp only [Bool.and_eq_true, Bool.not_eq_true',
        List.contains_eq_mem, decide_eq_false_iff_not] at hFree
      intro c hMem
      have hPlain :=
        isPlain_of_any_isUnprinted
          (Bool.eq_false_iff.mpr hPrinted) c hMem
      refine ⟨hPlain.resolve_right ?_, ?_⟩
      · rintro rfl
        exact hFree.2 hMem
      · rintro rfl
        exact hFree.1 hMem
  split at hQuoting
  · exact absurd hQuoting (by decide)
  split at hQuoting
  · exact absurd hQuoting (by decide)
  split at hQuoting
  · exact absurd hQuoting (by decide)
  · exact absurd hQuoting (by decide)

/- A text in three single quotes has no three in a row. -/
theorem of_quotingOf_longLiteral
    (hQuoting : quotingOf cs = .longLiteral) :
    (∀ c ∈ cs, isPlain c ∨ c = '\n') ∧
      hasTriple '\x27' cs = false := by
  unfold quotingOf at hQuoting
  split at hQuoting
  · split at hQuoting
    · exact absurd hQuoting (by decide)
    · exact absurd hQuoting (by decide)
  split at hQuoting
  · exact absurd hQuoting (by decide)
  split at hQuoting
  · exact absurd hQuoting (by decide)
  split at hQuoting
  · exact absurd hQuoting (by decide)
  split at hQuoting
  · next hPrinted _ _ _ hTriple =>
      exact ⟨isPlain_of_any_isUnprinted
        (Bool.eq_false_iff.mpr hPrinted),
        by simpa using hTriple⟩
  split at hQuoting
  · exact absurd hQuoting (by decide)
  · exact absurd hQuoting (by decide)

/- What is in double quotes on one line has no three quotes. -/
theorem threeQuotes_basic (cs rest : List Char) :
    threeQuotes? '"'
        ('"' :: (cs.flatMap escapedBasic
          ++ '"' :: '\n' :: rest)) =
      none := by
  cases cs with
  | nil => exact threeQuotes_of_third_ne (by decide) _ _ _
  | cons c cs =>
      rcases exists_cons_of_shows (escapedBasic_shows c) with
        ⟨first, tail, hText, hFirst, -⟩
      rw [List.flatMap_cons, hText]
      exact threeQuotes_of_second_ne hFirst _ _

/-
  A text without breaks does not begin with one between three
  double quotes either.
-/
theorem lineBreak_escapedLong
    (hBreak : '\n' ∉ cs)
    (rest : List Char) :
    lineBreak? (escapedLong 0 cs ++ endOfLong rest) = none := by
  cases cs with
  | nil => rfl
  | cons c cs =>
      rw [List.mem_cons, not_or] at hBreak
      by_cases hQuote : c = '"'
      · rw [hQuote, escapedLong_quote (Nat.zero_le 1)]
        exact lineBreak_of_isPlain (by decide) _
      · rcases exists_cons_of_shows
            (escapedChar_shows hQuote (Ne.symm hBreak.1)) with
          ⟨first, tail, hText, -, hPlain⟩
        rw [escapedLong, if_neg (by simpa using hQuote),
          if_neg (by simpa using Ne.symm hBreak.1), hText]
        exact lineBreak_of_isPlain hPlain _

/-
  A text of plain characters and breaks begins with a break
  only if it has one.
-/
theorem lineBreak_append
    (hPlain : ∀ c ∈ cs, isPlain c ∨ c = '\n')
    (hBreak : '\n' ∉ cs)
    (rest : List Char) :
    lineBreak? (cs ++ '\x27' :: rest) = none := by
  cases cs with
  | nil => rfl
  | cons c cs =>
      rw [List.mem_cons, not_or] at hBreak
      have hFirst :=
        (hPlain c List.mem_cons_self).resolve_right
          (Ne.symm hBreak.1)
      exact lineBreak_of_isPlain hFirst _

/- A text in single quotes is not in double quotes. -/
theorem basicText_single (cs : List Char) :
    basicText.run ('\x27' :: cs) = none :=
  inQuotes_other (by decide) cs

/- A text is read back from the quotes that are chosen for it. -/
theorem quotedText_quotedAs (cs rest : List Char) :
    quotedText.run
        (quotedAs (quotingOf cs) cs ++ '\n' :: rest) =
      some (String.ofList cs, '\n' :: rest) := by
  apply Reader.run_map
  cases hQuoting : quotingOf cs with
  | basic =>
      have hRead := readBasic_flatMap cs ('\n' :: rest)
      apply Reader.run_orElse_of_some
      rw [quotedAs, List.cons_append, List.append_assoc]
      exact (inQuotes_short (threeQuotes_basic cs rest)).trans
        hRead
  | literal =>
      rcases of_quotingOf_literal hQuoting with ⟨hSome, hPlain⟩
      have hRead := readLiteral_append hPlain ('\n' :: rest)
      rw [quotedAs, List.cons_append, List.append_assoc,
        Reader.run_orElse_of_none (basicText_single _)]
      refine (inQuotes_short ?_).trans hRead
      cases cs with
      | nil => exact absurd rfl hSome
      | cons c cs =>
          exact threeQuotes_of_second_ne
            (hPlain c List.mem_cons_self).2 _ _
  | longBasic =>
      apply Reader.run_orElse_of_some
      have hRead :=
        readLongBasic_escapedLong (Nat.zero_le 2) cs rest
      rw [← dropFirstBreak_leadingBreak
        fun hBreak => lineBreak_escapedLong hBreak rest] at hRead
      rw [quotedAs]
      simp only [List.append_assoc, List.cons_append,
        List.nil_append]
      exact (inQuotes_long _).trans hRead
  | longLiteral =>
      rcases of_quotingOf_longLiteral hQuoting with
        ⟨hPlain, hTriple⟩
      have hRead := readLongLiteral_append hPlain hTriple rest
      rw [← dropFirstBreak_leadingBreak
        fun hBreak => lineBreak_append hPlain hBreak _] at hRead
      rw [quotedAs]
      simp only [List.append_assoc, List.cons_append,
        List.nil_append]
      rw [Reader.run_orElse_of_none (basicText_single _)]
      exact (inQuotes_long _).trans hRead

end Toml

end PipelineScript
