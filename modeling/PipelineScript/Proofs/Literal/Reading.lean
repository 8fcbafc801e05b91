import PipelineScript.Proofs.Json.Numerals
import PipelineScript.Proofs.Json.Texts
import PipelineScript.Proofs.Lexis.Literals
import PipelineScript.Proofs.Literal.Datum

/-
  Literals that were written are read back, one by one and
  between brackets.

  A literal is read back wherever a symbol follows that ends
  it, and at the end of a text.

  Key definitions include:
    * `Datum.EndsLiteral`
    * `Datum.Reads`

  Key theorems include:
    * `Datum.readQuoted_flatMap`
    * `Datum.reads_text`
    * `Datum.reads_word`
    * `Datum.reads_numeral`
    * `Datum.readAll_commas`
    * `Datum.readAll_single`
    * `Datum.reads_mapping`
    * `Datum.reads_tuple`
-/

namespace PipelineScript

namespace Datum

variable {α β : Type}

------------------------------------------------------------
-- What It Means to Be Read Back
------------------------------------------------------------

/- Either nothing follows or a symbol that ends a literal. -/
def EndsLiteral (rest : List Char) : Prop :=
  ∀ c ∈ rest.head?, c ∈ Lexis.enders

/- Nothing ends a literal. -/
theorem endsLiteral_nil : EndsLiteral [] := by
  simp [EndsLiteral]

/- So does a symbol, whatever stands behind it. -/
theorem endsLiteral_cons
    {c : Char}
    (hEnder : c ∈ Lexis.enders)
    (rest : List Char) :
    EndsLiteral (c :: rest) := by
  simpa [EndsLiteral] using hEnder

/- What ends a literal ends a number. -/
theorem EndsLiteral.endsNumber
    {rest : List Char}
    (hEnds : EndsLiteral rest) :
    Json.EndsNumber rest := by
  intro c hHead
  have hEnder := hEnds c hHead
  simp only [Lexis.enders, List.mem_cons, List.not_mem_nil,
    or_false] at hEnder
  rcases hEnder with rfl | rfl | rfl | rfl | rfl
  all_goals rfl

/- It ends a word as well. -/
theorem EndsLiteral.endsWord
    {rest : List Char}
    (hEnds : EndsLiteral rest) :
    rest.takeWhile Text.isNamePart = [] ∧
      rest.dropWhile Text.isNamePart = rest := by
  cases rest with
  | nil => exact ⟨rfl, rfl⟩
  | cons c rest =>
      have hPart := (Lexis.ender_plain c (hEnds c rfl)).2.1
      exact ⟨List.takeWhile_cons_of_neg (by simp [hPart]),
        List.dropWhile_cons_of_neg (by simp [hPart])⟩

/- The characters that no literal begins with. -/
def separators : List Char :=
  [' ', ')', ']', '\x7d']

/-
  A reader reads a value back from a text, up to what ends the
  text.
-/
structure Reads
    (reader : Reader α)
    (text : String)
    (value : α) : Prop where
  exists_cons :
    ∃ c tail, text.toList = c :: tail ∧ c ∉ separators
  read_eq :
    ∀ {rest}, EndsLiteral rest →
      reader (text.toList ++ rest) = some (value, rest)

/- Spaces are passed over up to what is none. -/
theorem skipSpaces_cons
    {c : Char}
    (hSpace : c ≠ ' ')
    (rest : List Char) :
    skipSpaces (c :: rest) = c :: rest := by
  rw [skipSpaces, List.dropWhile_cons_of_neg (by simpa)]

/- There are none in front of a literal. -/
theorem Reads.skipSpaces_eq
    {reader : Reader α}
    {text : String}
    {value : α}
    (hReads : Reads reader text value)
    (rest : List Char) :
    skipSpaces (text.toList ++ rest) = text.toList ++ rest := by
  rcases hReads.exists_cons with ⟨c, tail, hText, hOpen⟩
  rw [hText, List.cons_append]
  apply skipSpaces_cons
  rintro rfl
  exact hOpen (by decide)

------------------------------------------------------------
-- Texts
------------------------------------------------------------

/- A control character is read back from its escape. -/
theorem readQuoted_escapedControl
    {c : Char}
    (hControl : Text.isControl c)
    (rest : List Char) :
    readQuoted (Literal.escapedControl c ++ rest) =
      inFront c (readQuoted rest) := by
  unfold Literal.escapedControl
  split
  · next hLine =>
      rw [beq_iff_eq.mp hLine]
      rfl
  split
  · next hReturn =>
      rw [beq_iff_eq.mp hReturn]
      rfl
  split
  · next hTab =>
      rw [beq_iff_eq.mp hTab]
      rfl
  · have hSmall := Lexis.toNat_lt_of_isControl hControl
    rcases Json.hexPair_of_lt c.toNat (by omega) with
      ⟨high, low, hPair, hHigh, hLow⟩
    have hChar : ofHexPair? high low = some c := by
      rw [ofHexPair?, hHigh, hLow]
      change
        some (Char.ofNat (16 * (c.toNat / 16) + c.toNat % 16)) =
          some c
      rw [Nat.div_add_mod, Char.ofNat_toNat]
    rw [hPair]
    change readQuoted ('\\' :: 'x' :: high :: low :: rest) = _
    rw [readQuoted, hChar]

/- Every character is read back from what it is written as. -/
theorem readQuoted_quotedChar
    (c : Char)
    (rest : List Char) :
    readQuoted (Literal.quotedChar c ++ rest) =
      inFront c (readQuoted rest) := by
  unfold Literal.quotedChar
  split
  · next hMark =>
      rw [beq_iff_eq.mp hMark]
      rfl
  split
  · next hQuote =>
      rw [beq_iff_eq.mp hQuote]
      rfl
  split
  · next hControl =>
      exact readQuoted_escapedControl hControl rest
  · next hMark hQuote hPlain =>
      rw [beq_iff_eq] at hMark hQuote
      -- The characters that may not stand there are control
      -- characters, and those are escaped.
      have hAllowed : isForbidden c = false := by
        rw [← Bool.not_eq_true, isForbidden]
        rintro hForbidden
        apply hPlain
        simp only [Bool.or_eq_true, beq_iff_eq] at hForbidden
        rcases hForbidden with (rfl | rfl) | rfl
        all_goals rfl
      simp [readQuoted, hMark, hAllowed]

/- A text is read back up to the mark that closes it. -/
theorem readQuoted_flatMap
    (letters rest : List Char) :
    readQuoted
        (letters.flatMap Literal.quotedChar ++ '\'' :: rest) =
      some (letters, rest) := by
  induction letters with
  | nil => rfl
  | cons c letters ih =>
      rw [List.flatMap_cons, List.append_assoc,
        readQuoted_quotedChar, ih]
      rfl

/- What a text is written as, with what follows it. -/
theorem toList_text_append
    (value : String)
    (rest : List Char) :
    (Literal.text value).toList ++ rest =
      '\'' :: (value.toList.flatMap Literal.quotedChar
        ++ '\'' :: rest) := by
  rw [Literal.text, String.toList_ofList, List.cons_append,
    List.append_assoc, List.singleton_append]

/- A text begins with its mark. -/
theorem exists_toList_text_cons (value : String) :
    ∃ c tail,
      (Literal.text value).toList = c :: tail ∧
        c ∉ separators := by
  rw [Literal.text, String.toList_ofList]
  exact ⟨_, _, rfl, by decide⟩

variable {inner : Reader Datum}

/- A text is read back. -/
theorem reads_text (value : String) :
    Reads (readAround inner) (Literal.text value)
      (.text value) where
  exists_cons := exists_toList_text_cons value
  read_eq := by
    intro rest _
    rw [toList_text_append, readAround, readQuoted_flatMap]
    simp [mapRead]

------------------------------------------------------------
-- Words
------------------------------------------------------------

/- A word that stands for a value is read back. -/
theorem reads_word
    {letters : List Char}
    {datum : Datum}
    (hWord : (letters, datum) ∈ words) :
    Reads (readAround inner) (String.ofList letters) datum := by
  have hPlain :
      ∀ word ∈ words,
        word.1.all Text.isNamePart ∧
          words.lookup word.1 = some word.2 ∧
          ∃ c tail, word.1 = c :: tail ∧ c ∉ separators ∧
            ∀ rest, readAround inner (c :: rest) =
              readWord (c :: rest) := by
    intro word hMem
    simp only [words, List.mem_cons, List.not_mem_nil,
      or_false] at hMem
    rcases hMem with rfl | rfl | rfl
    all_goals
      exact ⟨rfl, rfl, _, _, rfl, by decide, fun _ => rfl⟩
  rcases hPlain _ hWord with
    ⟨hPart, hLookup, c, tail, hLetters, hOpen, hRead⟩
  constructor
  · rw [String.toList_ofList]
    exact ⟨c, tail, hLetters, hOpen⟩
  · intro rest hEnds
    have hAll := List.all_eq_true.mp hPart
    rcases hEnds.endsWord with ⟨hTake, hDrop⟩
    have hWordRead :
        readWord (letters ++ rest) = some (datum, rest) := by
      rw [readWord, List.takeWhile_append_of_pos hAll, hTake,
        List.dropWhile_append_of_pos hAll, hDrop,
        List.append_nil, hLookup]
      rfl
    rw [String.toList_ofList]
    dsimp only at hLetters
    rw [hLetters, List.cons_append] at hWordRead ⊢
    rw [hRead, hWordRead]

/- A truth value is read back. -/
theorem reads_boolean (flag : Bool) :
    Reads (readAround inner) (Literal.boolean flag)
      (.truth flag) := by
  cases flag with
  | true => exact reads_word (by simp [words])
  | false => exact reads_word (by simp [words])

------------------------------------------------------------
-- Numbers
------------------------------------------------------------

section Numerals

variable {numeral : Json.Numeral} {x : Binary64}

/- An integer that fits keeps its value. -/
theorem eq_of_ofInt?
    {n value : Int}
    {hRange :
      -9223372036854775808 ≤ value ∧
        value < 18446744073709551616}
    (hInt : Number.ofInt? n = some (.integer value hRange)) :
    n = value := by
  unfold Number.ofInt? at hInt
  split at hInt
  · rw [Option.some.injEq, Number.integer.injEq] at hInt
    exact hInt
  · simp at hInt

/- What a document takes for an integer is one in a script. -/
theorem ofNumeral?_of_integer
    {value : Int}
    {hRange :
      -9223372036854775808 ≤ value ∧
        value < 18446744073709551616}
    (hValue : numeral.value? = some (.integer value hRange)) :
    ofNumeral? numeral = some (.integer value) := by
  have hNone (read : Option Binary64) :
      read.map Number.binary ≠ some (.integer value hRange) := by
    cases read <;> simp
  unfold Json.Numeral.value? at hValue
  unfold ofNumeral?
  dsimp only at hValue ⊢
  split at hValue
  · exact absurd hValue (hNone _)
  split at hValue
  · exact absurd hValue (hNone _)
  · next hDigits _ =>
      rw [if_neg hDigits]
      rcases Option.or_eq_some_iff.mp hValue with hInt | hInt
      · rw [eq_of_ofInt? hInt]
      · exact absurd hInt.2 (hNone _)

/- With a point or a power, it is the nearest float. -/
theorem ofNumeral?_of_binary
    (hBinary : numeral.fraction.isSome || numeral.power.isSome)
    (hNearest :
      Binary64.ofDecimal? numeral.negative
          numeral.decimal.digits numeral.decimal.exponent =
        some x) :
    ofNumeral? numeral = some (.float x) := by
  unfold ofNumeral?
  dsimp only
  rw [if_pos hBinary, hNearest]
  rfl

/- A numeral is read back as what it stands for. -/
theorem reads_numeral
    {datum : Datum}
    (hWell : numeral.IsWellFormed)
    (hDatum : ofNumeral? numeral = some datum) :
    Reads (readAround inner) (String.ofList numeral.text)
      datum := by
  rcases hWell.exists_text_cons with ⟨c, tail, hText, hHead⟩
  have hOther := Json.ne_of_beginsNumber hHead
  constructor
  · rw [String.toList_ofList]
    refine ⟨c, tail, hText, ?_⟩
    simp [separators, hOther]
  · intro rest hEnds
    have hScan :
        Json.scanNumeral .malformed (numeral.text ++ rest) =
          .ok (numeral, rest) :=
      Json.scanNumeral_text hWell hEnds.endsNumber
    have hRead :
        readNumber (numeral.text ++ rest) =
          some (datum, rest) := by
      rw [readNumber, hScan]
      dsimp only
      rw [hDatum]
      rfl
    rw [String.toList_ofList]
    rw [hText, List.cons_append] at hRead ⊢
    rw [← hRead]
    rw [Bool.or_eq_true, beq_iff_eq] at hHead
    simp [readAround, hOther '\'' (by decide),
      hOther '[' (by decide), hOther '(' (by decide),
      hOther '\x7b' (by decide), hHead]

/- An integer is read back. -/
theorem reads_integer
    (value : Int)
    (hRange :
      -9223372036854775808 ≤ value ∧
        value < 18446744073709551616) :
    Reads (readAround inner) (Literal.integer value)
      (.integer value) := by
  rcases Json.exists_numeral_of_integer value hRange with
    ⟨numeral, hWell, hText, hValue⟩
  rw [Literal.integer, hText]
  exact reads_numeral hWell (ofNumeral?_of_integer hValue)

/- A binary number is read back as a float. -/
theorem reads_binary (x : Binary64) :
    Reads (readAround inner) (Literal.binary x) (.float x) := by
  rcases Json.exists_numeral_of_binary Literal.layout x with
    ⟨numeral, hWell, hText, hBinary, hNearest⟩
  rw [Literal.binary, hText]
  exact reads_numeral hWell
    (ofNumeral?_of_binary hBinary hNearest)

end Numerals

------------------------------------------------------------
-- What Stands Between Brackets
------------------------------------------------------------

section Items

variable {item : Reader α} {close : Char}
variable {text : String} {value : α}
variable {texts : List String} {values : List α}

/- The symbols that close what was opened. -/
def closers : List Char :=
  [')', ']', '\x7d']

/- They end a literal and do not begin one. -/
theorem closer_plain :
    ∀ c ∈ closers,
      c ∈ Lexis.enders ∧ c ∈ separators ∧
        c ≠ ' ' ∧ c ≠ ',' := by
  intro c hMem
  simp only [closers, List.mem_cons, List.not_mem_nil,
    or_false] at hMem
  rcases hMem with rfl | rfl | rfl
  all_goals
    simp [Lexis.enders, separators]

/- Spaces in front of items do not count. -/
theorem readItems_of_space
    (most : Nat)
    (cs : List Char) :
    readItems item close most (' ' :: cs) =
      readItems item close most cs := by
  cases most with
  | zero => rfl
  | succ most => rfl

/- There are no items where they are closed at once. -/
theorem readItems_of_close
    (hClose : close ∈ closers)
    (most : Nat)
    (rest : List Char) :
    readItems item close (most + 1) (close :: rest) =
      some (([], false), rest) := by
  have hSpace := (closer_plain close hClose).2.2.1
  simp only [readItems, skipSpaces_cons hSpace]
  rw [if_pos (beq_self_eq_true close)]

/- The first item is read up to the symbol that ends it. -/
theorem readItems_of_item
    (hClose : close ∈ closers)
    (hReads : Reads item text value)
    {c : Char}
    (hEnder : c ∈ Lexis.enders)
    (most : Nat)
    (rest : List Char) :
    readItems item close (most + 1)
        (text.toList ++ c :: rest) =
      if c == close then
        some (([value], true), rest)
      else if c == ',' then
        mapRead (Prod.map (value :: ·) id)
          (readItems item close most rest)
      else
        none := by
  have hSpaces := hReads.skipSpaces_eq (c :: rest)
  have hItem :=
    hReads.read_eq (endsLiteral_cons hEnder rest)
  rcases hReads.exists_cons with ⟨first, tail, hText, hOpen⟩
  have hFirst : (first == close) = false := by
    rw [beq_eq_false_iff_ne]
    rintro rfl
    exact hOpen (closer_plain _ hClose).2.1
  have hSpace : c ≠ ' ' := by
    rintro rfl
    exact absurd hEnder (by decide)
  rw [hText, List.cons_append] at hSpaces hItem ⊢
  simp only [readItems, hSpaces, hFirst, hItem,
    skipSpaces_cons hSpace]
  simp

/- Items that are read back one by one are read back. -/
theorem readItems_commas
    (hClose : close ∈ closers)
    (hReads : List.Forall₂ (Reads item) texts values)
    {most : Nat}
    (hMost : texts.length < most)
    (rest : List Char) :
    readItems item close most
        ((", ".intercalate texts).toList ++ close :: rest) =
      some ((values, !values.isEmpty), rest) := by
  induction hReads generalizing most with
  | nil =>
      rcases Nat.exists_eq_add_one.mpr hMost with ⟨left, rfl⟩
      exact readItems_of_close hClose left rest
  | @cons text value texts values hFirst hRest ih =>
      rcases Nat.exists_eq_add_one.mpr
        (Nat.zero_lt_of_lt hMost) with ⟨left, rfl⟩
      rw [List.length_cons] at hMost
      cases hRest with
      | nil =>
          rw [String.intercalate_singleton,
            readItems_of_item hClose hFirst
              (closer_plain close hClose).1,
            if_pos (by simp)]
          rfl
      | @cons second next texts values hSecond hRest =>
          have hLess : (second :: texts).length < left := by
            omega
          have hComma : (',' == close) = false := by
            rw [beq_eq_false_iff_ne]
            exact (closer_plain close hClose).2.2.2.symm
          have hText :
              (", ".intercalate
                  (text :: second :: texts)).toList
                  ++ close :: rest =
                text.toList ++ ',' :: ' ' ::
                  ((", ".intercalate
                    (second :: texts)).toList
                    ++ close :: rest) := by
            rw [String.intercalate_cons_cons]
            simp
          rw [hText,
            readItems_of_item hClose hFirst (by decide),
            hComma, readItems_of_space, ih hLess]
          rfl

/- There are no more parts than characters, but for one. -/
theorem length_parts_le (texts : List String) :
    texts.length ≤
      (", ".intercalate texts).toList.length + 1 := by
  induction texts with
  | nil => simp
  | cons text texts ih =>
      cases texts with
      | nil => simp
      | cons second texts =>
          have hComma : ", ".toList.length = 2 := rfl
          rw [String.intercalate_cons_cons]
          simp only [List.length_cons, String.toList_append,
            List.length_append, hComma] at ih ⊢
          omega

/- All items are read back up to what closes them. -/
theorem readAll_commas
    (hClose : close ∈ closers)
    (hReads : List.Forall₂ (Reads item) texts values)
    (rest : List Char) :
    readAll item close
        ((", ".intercalate texts).toList ++ close :: rest) =
      some ((values, !values.isEmpty), rest) := by
  apply readItems_commas hClose hReads
  have hLength := length_parts_le texts
  rw [List.length_append, List.length_cons]
  omega

/- One item with a comma behind it is told from one alone. -/
theorem readAll_single
    (hClose : close ∈ closers)
    (hReads : Reads item text value)
    (rest : List Char) :
    readAll item close (text.toList ++ ',' :: close :: rest) =
      some (([value], false), rest) := by
  have hComma : (',' == close) = false := by
    rw [beq_eq_false_iff_ne]
    exact (closer_plain close hClose).2.2.2.symm
  have hLength :
      (text.toList ++ ',' :: close :: rest).length =
        text.toList.length + rest.length + 1 + 1 := by
    simp
    omega
  rw [readAll, hLength,
    readItems_of_item hClose hReads (by decide), hComma,
    readItems_of_close hClose]
  rfl

end Items

------------------------------------------------------------
-- Containers
------------------------------------------------------------

variable {texts : List String}

/- What is read behind an opening symbol is read back. -/
theorem reads_enclosed
    {datum : Datum}
    {c : Char}
    (hOpen : c ∉ separators)
    (text : String)
    {closing : List Char}
    (hRead :
      ∀ rest,
        readAround inner
            (c :: (text.toList ++ (closing ++ rest))) =
          some (datum, rest)) :
    Reads (readAround inner)
      (String.ofList [c] ++ text ++ String.ofList closing)
      datum where
  exists_cons := by
    rw [String.append_assoc, String.toList_append,
      String.toList_ofList]
    exact ⟨c, _, rfl, hOpen⟩
  read_eq := by
    intro rest _
    rw [String.toList_append, String.toList_append,
      String.toList_ofList, String.toList_ofList,
      List.append_assoc, List.append_assoc]
    exact hRead rest

/- A list is read back if its items are. -/
theorem reads_list
    {items : List Datum}
    (hReads : List.Forall₂ (Reads inner) texts items) :
    Reads (readAround inner)
      ("[" ++ ", ".intercalate texts ++ "]") (.list items) := by
  apply reads_enclosed (show '[' ∉ separators by decide)
  intro rest
  rw [readAround, List.singleton_append,
    readAll_commas (by decide) hReads]
  rfl

/- Items without a comma between them are refused. -/
example :
    readDatum 1
        ['[', 'N', 'o', 'n', 'e', ' ', 'N', 'o', 'n', 'e',
          ']'] =
      none := by
  rfl

/- A member is read back if what stands under its key is. -/
theorem reads_member
    {text : String}
    {datum : Datum}
    (key : String)
    (hReads : Reads inner text datum) :
    Reads (readMember inner)
      (Literal.text key ++ ": " ++ text) (key, datum) where
  exists_cons := by
    rcases exists_toList_text_cons key with
      ⟨c, tail, hText, hOpen⟩
    rw [String.toList_append, String.toList_append, hText]
    exact ⟨c, _, rfl, hOpen⟩
  read_eq := by
    intro rest hEnds
    have hSpaces :
        skipSpaces (' ' :: (text.toList ++ rest)) =
          text.toList ++ rest :=
      hReads.skipSpaces_eq rest
    have hText :
        (Literal.text key ++ ": " ++ text).toList ++ rest =
          '\'' :: (key.toList.flatMap Literal.quotedChar
            ++ '\'' :: ':' :: ' ' :: (text.toList ++ rest)) := by
      rw [String.toList_append, String.toList_append,
        List.append_assoc, List.append_assoc,
        toList_text_append]
      rfl
    rw [hText]
    simp only [readMember, readQuoted_flatMap,
      skipSpaces_cons (show ':' ≠ ' ' by decide), hSpaces,
      hReads.read_eq hEnds]
    simp [mapRead]

/- A mapping with distinct keys is read back. -/
theorem reads_mapping
    {entries : List (String × Datum)}
    (hKeys : (Entries.keys entries).Nodup)
    (hReads :
      List.Forall₂ (Reads (readMember inner)) texts entries) :
    Reads (readAround inner)
      ("\x7b" ++ ", ".intercalate texts ++ "\x7d")
      (.mapping entries) := by
  apply reads_enclosed (show '\x7b' ∉ separators by decide)
  intro rest
  rw [readAround, List.singleton_append,
    readAll_commas (by decide) hReads]
  simp only [mapRead, Option.map_some, ofMembers,
    Table.entries_ofList hKeys]

/- One item with a comma behind it is a tuple. -/
theorem reads_single
    {text : String}
    {item : Datum}
    (hReads : Reads inner text item) :
    Reads (readAround inner) ("(" ++ text ++ ",)")
      (.tuple [item]) := by
  apply reads_enclosed (show '(' ∉ separators by decide)
  intro rest
  rw [readAround, List.cons_append, List.singleton_append,
    readAll_single (by decide) hReads]
  rfl

/- Without the comma there is the item alone. -/
example :
    readDatum 1 ['(', 'N', 'o', 'n', 'e', ')'] =
      some (.nothing, []) := by
  rfl

/- Items of any other number are a tuple as well. -/
theorem reads_tuple
    {items : List Datum}
    (hOther : items.length ≠ 1)
    (hReads : List.Forall₂ (Reads inner) texts items) :
    Reads (readAround inner)
      ("(" ++ ", ".intercalate texts ++ ")")
      (.tuple items) := by
  have hGroup (isEnded : Bool) :
      ofGroup (items, isEnded) = .tuple items := by
    unfold ofGroup
    split
    · next item hItem =>
        rw [Prod.mk.injEq] at hItem
        exact absurd (congrArg List.length hItem.1) hOther
    · next hItems =>
        rw [(Prod.mk.inj hItems).1]
  apply reads_enclosed (show '(' ∉ separators by decide)
  intro rest
  rw [readAround, List.singleton_append,
    readAll_commas (by decide) hReads]
  simp only [mapRead, Option.map_some, hGroup]

end Datum

end PipelineScript
