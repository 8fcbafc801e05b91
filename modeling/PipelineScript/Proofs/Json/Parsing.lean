import PipelineScript.Json.Standard
import PipelineScript.Proofs.Json.Faithful
import PipelineScript.Proofs.Json.Numerals
import PipelineScript.Proofs.Json.Texts

/-
  Every value is parsed back from its text if the binary
  numbers in it are.

  The parser finds a value behind any blanks and up to what
  follows it. The room between the parts may be any blanks.

  Key definitions include:
    * `Json.StartsValue`
    * `Json.Spacing.IsBlank`
    * `Json.Parser.Finds`
    * `Json.IsKept`

  Key theorems include:
    * `Json.Parser.parts_find`
    * `Json.Parser.member_finds`
    * `Json.Parser.render_finds`
    * `Json.parse_pretty`
    * `Json.standard_isFaithful`
-/

namespace PipelineScript

namespace Json

------------------------------------------------------------
-- Blanks
------------------------------------------------------------

/- Nothing but blanks. -/
def IsBlank (cs : List Char) : Prop :=
  ∀ c ∈ cs, isSpace c

/- No room is blank. -/
theorem isBlank_nil : IsBlank [] := by
  simp [IsBlank]

/-
  A text that a value may begin with: neither a blank nor the
  end of what encloses the value.
-/
structure StartsValue (cs : List Char) : Prop where
  exists_cons :
    ∃ c tail, cs = c :: tail ∧ isSpace c = false ∧
      c ≠ ']' ∧ c ≠ '\x7d'

/- What is enclosed begins with its opening character. -/
theorem startsValue_cons
    {c : Char}
    {tail : List Char}
    (hSpace : isSpace c = false)
    (hBracket : c ≠ ']')
    (hBrace : c ≠ '\x7d') :
    StartsValue (c :: tail) :=
  ⟨c, tail, rfl, hSpace, hBracket, hBrace⟩

/- Blanks are passed over up to a value. -/
theorem skipBlank_append
    {before cs : List Char}
    (hBefore : IsBlank before)
    (hStarts : StartsValue cs)
    (rest : List Char) :
    skipBlank (before ++ (cs ++ rest)) = cs ++ rest := by
  rcases hStarts.exists_cons with ⟨c, tail, rfl, hSpace, -⟩
  rw [skipBlank, List.dropWhile_append_of_pos hBefore,
    List.cons_append, List.dropWhile_cons_of_neg (by simp [hSpace])]

/- Blanks are passed over up to a character that is none. -/
theorem skipBlank_cons
    {before : List Char}
    {c : Char}
    (hBefore : IsBlank before)
    (hSpace : isSpace c = false)
    (rest : List Char) :
    skipBlank (before ++ c :: rest) = c :: rest := by
  rw [skipBlank, List.dropWhile_append_of_pos hBefore,
    List.dropWhile_cons_of_neg (by simp [hSpace])]

/- A blank does not go on with a number. -/
theorem goesOn_of_isSpace
    {c : Char}
    (hSpace : isSpace c) :
    goesOn c = false := by
  unfold isSpace at hSpace
  simp only [Bool.or_eq_true, beq_iff_eq] at hSpace
  rcases hSpace with ((rfl | rfl) | rfl) | rfl
  all_goals decide

/- Neither do blanks in front of what does not. -/
theorem endsNumber_append
    {before rest : List Char}
    (hBefore : IsBlank before)
    (hRest : EndsNumber rest) :
    EndsNumber (before ++ rest) := by
  cases before with
  | nil => exact hRest
  | cons c before =>
      exact endsNumber_cons
        (goesOn_of_isSpace (hBefore c List.mem_cons_self))

/- The room between the parts of a value is blank. -/
structure Spacing.IsBlank (spacing : Spacing) : Prop where
  beforeItem : ∀ depth, Json.IsBlank (spacing.beforeItem depth)
  afterKey :
    ∃ room, spacing.afterKey = ':' :: room ∧ Json.IsBlank room

/- One item a line. -/
theorem Spacing.isBlank_wide : Spacing.wide.IsBlank where
  beforeItem := by
    intro depth c hMem
    rw [Spacing.wide, List.mem_cons, List.mem_replicate] at hMem
    rcases hMem with rfl | ⟨-, rfl⟩
    · rfl
    · rfl
  afterKey := ⟨[' '], rfl, by simp [Json.IsBlank, isSpace]⟩

------------------------------------------------------------
-- What Stands Between Brackets
------------------------------------------------------------

/- The parts behind the first one, and what closes them. -/
def behind
    (spacing : Spacing)
    (depth : Nat)
    (closing : Char) : List (List Char) → List Char
  | [] => spacing.beforeItem depth ++ [closing]
  | part :: parts =>
      ',' :: (spacing.beforeItem (depth + 1)
        ++ (part ++ behind spacing depth closing parts))

/- All that stands behind the opening character. -/
def inside
    (spacing : Spacing)
    (depth : Nat)
    (closing : Char) : List (List Char) → List Char
  | [] => [closing]
  | part :: parts =>
      spacing.beforeItem (depth + 1)
        ++ (part ++ behind spacing depth closing parts)

/- Parts that are enclosed stand one behind the other. -/
theorem enclose_eq
    (spacing : Spacing)
    (depth : Nat)
    (opening closing : Char)
    (parts : List (List Char)) :
    spacing.enclose depth opening closing parts =
      opening :: inside spacing depth closing parts := by
  have hParts (part : List Char) (parts : List (List Char)) :
      List.intercalate [',']
            ((part :: parts).map
              (spacing.beforeItem (depth + 1) ++ ·))
          ++ (spacing.beforeItem depth ++ [closing]) =
        inside spacing depth closing (part :: parts) := by
    induction parts generalizing part with
    | nil => simp [inside, behind]
    | cons next parts ih =>
        rw [List.map_cons, List.map_cons,
          List.intercalate_cons_cons, ← List.map_cons,
          List.append_assoc, ih, inside, inside, behind]
        simp
  cases parts with
  | nil => rfl
  | cons part parts =>
      rw [Spacing.enclose, if_neg (by simp), List.append_assoc,
        hParts]

/- What stands behind a part ends a number. -/
theorem endsNumber_behind
    {spacing : Spacing}
    (hSpacing : spacing.IsBlank)
    {closing : Char}
    (hClosing : goesOn closing = false)
    (depth : Nat)
    (parts : List (List Char))
    (rest : List Char) :
    EndsNumber (behind spacing depth closing parts ++ rest) := by
  cases parts with
  | nil =>
      rw [behind, List.append_assoc]
      exact endsNumber_append (hSpacing.beforeItem depth)
        (endsNumber_cons hClosing)
  | cons part parts => exact endsNumber_cons (by decide)

/- The character closes a container. -/
structure Closes (close : Char) : Prop where
  isSpace_eq : isSpace close = false
  goesOn_eq : goesOn close = false
  ne_comma : close ≠ ','

/- The bracket does. -/
theorem closes_bracket : Closes ']' := by
  constructor <;> decide

/- So does the brace. -/
theorem closes_brace : Closes '\x7d' := by
  constructor <;> decide

/- A binary number that is read back from its own text. -/
def IsKept (x : Binary64) : Prop :=
  readNumber (numberText (.binary x)) = .ok (.binary x, [])

namespace Parser

variable {α : Type} {spacing : Spacing} {depth : Nat}

/-
  What is found of a text at the front of another one: behind
  any blanks, and up to what ends a number. The text must have
  fewer characters than the limit.
-/
structure Finds
    (part : List Char → Found α)
    (limit : Nat)
    (cs : List Char)
    (content : α) : Prop where
  starts : StartsValue cs
  found_eq :
    ∀ {before rest},
      IsBlank before → EndsNumber rest →
        (before ++ (cs ++ rest)).length < limit →
          part (before ++ (cs ++ rest)) = ⟨content, .ok rest⟩

/- A value is found if it is with one level or more. -/
theorem finds_of_succ
    {cs : List Char}
    {document : Document}
    (hStarts : StartsValue cs)
    (hFound :
      ∀ {levels before rest},
        IsBlank before → EndsNumber rest →
          (before ++ (cs ++ rest)).length < levels + 1 →
            value (levels + 1) (before ++ (cs ++ rest)) =
              ⟨document, .ok rest⟩)
    (levels : Nat) :
    Finds (value levels) levels cs document where
  starts := hStarts
  found_eq := by
    intro before rest hBefore hRest hLimit
    cases levels with
    | zero => exact absurd hLimit (Nat.not_lt_zero _)
    | succ levels => exact hFound hBefore hRest hLimit

------------------------------------------------------------
-- Scalars
------------------------------------------------------------

/- A word is found as the value that it stands for. -/
theorem null_finds (levels : Nat) :
    Finds (value levels) levels ['n', 'u', 'l', 'l'] .null := by
  apply finds_of_succ
    (startsValue_cons (by decide) (by decide) (by decide))
  intro levels before rest hBefore _ _
  simp only [value, List.cons_append,
    skipBlank_cons hBefore (show isSpace 'n' = false by rfl)]
  rfl

/- So is a truth value. -/
theorem boolean_finds (flag : Bool) (levels : Nat) :
    Finds (value levels) levels
      ((Value.boolean flag).render spacing depth)
      (.boolean flag) := by
  cases flag with
  | true =>
      apply finds_of_succ
        (startsValue_cons (by decide) (by decide) (by decide))
      intro levels before rest hBefore _ _
      simp only [value, List.cons_append,
        skipBlank_cons hBefore (show isSpace 't' = false by rfl)]
      rfl
  | false =>
      apply finds_of_succ
        (startsValue_cons (by decide) (by decide) (by decide))
      intro levels before rest hBefore _ _
      simp only [value, List.cons_append,
        skipBlank_cons hBefore (show isSpace 'f' = false by rfl)]
      rfl

/- A number begins with its sign or with a digit. -/
theorem exists_numberText_cons (n : Number) :
    ∃ c tail, numberText n = c :: tail ∧
      (c == '-' || c.isDigit) := by
  rcases exists_numeral_of_number n with
    ⟨numeral, hWell, hText⟩
  rw [hText]
  exact hWell.exists_text_cons

/- A number may stand where a value does. -/
theorem startsValue_numberText (n : Number) :
    StartsValue (numberText n) := by
  rcases exists_numberText_cons n with ⟨c, tail, hText, hHead⟩
  have hOther := ne_of_beginsNumber hHead
  rw [hText]
  apply startsValue_cons
  · rw [← Bool.not_eq_true, isSpace]
    simp [hOther ' ' (by decide), hOther '\n' (by decide),
      hOther '\t' (by decide), hOther '\r' (by decide)]
  · exact hOther ']' (by decide)
  · exact hOther '\x7d' (by decide)

/- What begins like a number is taken for one. -/
theorem value_numberText
    (n : Number)
    (levels : Nat)
    {before rest : List Char}
    (hBefore : IsBlank before) :
    value (levels + 1) (before ++ (numberText n ++ rest)) =
      number (numberText n ++ rest) := by
  have hSkip :=
    skipBlank_append hBefore (startsValue_numberText n) rest
  rcases exists_numberText_cons n with ⟨c, tail, hText, hHead⟩
  have hOther := ne_of_beginsNumber hHead
  simp only [hText, List.cons_append] at hSkip ⊢
  simp only [value, hSkip, beq_iff_eq,
    hOther 'n' (by decide), hOther 't' (by decide),
    hOther 'f' (by decide), if_false, hHead, if_true]

/- A number that is read back alone is found anywhere. -/
theorem number_finds
    {n : Number}
    (hRead : readNumber (numberText n) = .ok (n, []))
    (levels : Nat) :
    Finds (value levels) levels (numberText n) (.number n) := by
  apply finds_of_succ (startsValue_numberText n)
  intro levels before rest hBefore hRest _
  rw [value_numberText n levels hBefore, number,
    readNumber_append hRead hRest]

/- An integer always is. -/
theorem integer_finds
    (n : Int)
    (hRange :
      -9223372036854775808 ≤ n ∧ n < 18446744073709551616)
    (levels : Nat) :
    Finds (value levels) levels
      (numberText (.integer n hRange))
      (.number (.integer n hRange)) := by
  have hRead := readNumber_integer n hRange endsNumber_nil
  rw [List.append_nil] at hRead
  exact number_finds hRead levels

/- A quoted text begins with its quote. -/
theorem startsValue_quotedText (content : String) :
    StartsValue (quotedText content) :=
  ⟨_, _, rfl, by decide, by decide, by decide⟩

/- A text is found behind its quote. -/
theorem textOf_flatMap (content : String) (rest : List Char) :
    textOf
        (content.toList.flatMap escapedChar ++ '"' :: rest) =
      ⟨.ok content, .ok rest⟩ := by
  rw [textOf, readText_flatMap]
  dsimp only
  rw [String.ofList_toList]

/- So it is as a value. -/
theorem text_finds (content : String) (levels : Nat) :
    Finds (value levels) levels (quotedText content)
      (.text content) := by
  apply finds_of_succ (startsValue_quotedText content)
  intro levels before rest hBefore _ _
  have hSkip :=
    skipBlank_append hBefore (startsValue_quotedText content)
      rest
  simp only [quotedText, List.cons_append, List.append_assoc,
    List.nil_append] at hSkip ⊢
  simp only [value, hSkip]
  rw [if_neg (by decide), if_neg (by decide),
    if_neg (by decide), if_neg (by decide), if_pos (by rfl),
    text, textOf_flatMap]

------------------------------------------------------------
-- Parts of Containers
------------------------------------------------------------

variable {part : List Char → Found α} {close : Char}
variable {limit : Nat}

/- A part is found in front of what closes the container. -/
theorem partsFrom_of_close
    {fuel : Nat}
    {cs following rest : List Char}
    {content : α}
    (hPart : part cs = ⟨content, .ok following⟩)
    (hSkip : skipBlank following = close :: rest) :
    partsFrom close part (fuel + 1) cs =
      ⟨[content], .ok rest⟩ := by
  simp only [partsFrom, hPart, hSkip, beq_self_eq_true, if_true]

/- It is found in front of a comma and the other parts. -/
theorem partsFrom_of_comma
    {fuel : Nat}
    {cs following : List Char}
    {content : α}
    (hClose : close ≠ ',')
    (hPart : part cs = ⟨content, .ok (',' :: following)⟩) :
    partsFrom close part (fuel + 1) cs =
      (partsFrom close part fuel following).map
        (content :: ·) := by
  have hSkip : skipBlank (',' :: following) = ',' :: following :=
    rfl
  simp only [partsFrom, hPart, hSkip, beq_iff_eq, hClose.symm,
    if_false, if_true]

/- Parts that are found one by one are found together. -/
theorem partsFrom_find
    (hSpacing : spacing.IsBlank)
    (hClose : Closes close)
    {first : List Char × α}
    {others : List (List Char × α)}
    (hFirst : Finds part limit first.1 first.2)
    (hOthers :
      ∀ other ∈ others, Finds part limit other.1 other.2)
    {fuel : Nat}
    {before rest : List Char}
    (hBefore : IsBlank before)
    (hLimit :
      (before ++ (first.1
        ++ (behind spacing depth close (others.map Prod.fst)
          ++ rest))).length < limit)
    (hFuel :
      (before ++ (first.1
        ++ (behind spacing depth close (others.map Prod.fst)
          ++ rest))).length < fuel) :
    partsFrom close part fuel
        (before ++ (first.1
          ++ (behind spacing depth close (others.map Prod.fst)
            ++ rest))) =
      ⟨first.2 :: others.map Prod.snd, .ok rest⟩ := by
  induction others generalizing first before fuel with
  | nil =>
      cases fuel with
      | zero => exact absurd hFuel (Nat.not_lt_zero _)
      | succ fuel =>
          have hEnds :=
            endsNumber_behind hSpacing hClose.goesOn_eq depth []
              rest
          apply partsFrom_of_close
            (hFirst.found_eq hBefore hEnds hLimit)
          rw [behind, List.append_assoc]
          exact skipBlank_cons (hSpacing.beforeItem depth)
            hClose.isSpace_eq rest
  | cons other others ih =>
      rw [List.forall_mem_cons] at hOthers
      cases fuel with
      | zero => exact absurd hFuel (Nat.not_lt_zero _)
      | succ fuel =>
          have hEnds :=
            endsNumber_behind hSpacing hClose.goesOn_eq depth
              ((other :: others).map Prod.fst) rest
          have hPart := hFirst.found_eq hBefore hEnds hLimit
          -- What stands behind the comma is shorter.
          simp only [List.map_cons, behind, List.cons_append,
            List.append_assoc, List.length_append,
            List.length_cons] at hPart hLimit hFuel ⊢
          rw [partsFrom_of_comma hClose.ne_comma hPart,
            ih hOthers.1 hOthers.2
              (hSpacing.beforeItem (depth + 1))
              (by simp only [List.length_append]; omega)
              (by simp only [List.length_append]; omega)]
          rfl

/- So are all parts behind an opening character. -/
theorem parts_find
    (hSpacing : spacing.IsBlank)
    (hClose : Closes close)
    (hBracket : close = ']' ∨ close = '\x7d')
    (depth : Nat)
    {found : List (List Char × α)}
    (hParts :
      ∀ other ∈ found, Finds part limit other.1 other.2)
    {rest : List Char}
    (hLimit :
      (inside spacing depth close (found.map Prod.fst)
        ++ rest).length < limit) :
    parts close part
        (inside spacing depth close (found.map Prod.fst)
          ++ rest) =
      ⟨found.map Prod.snd, .ok rest⟩ := by
  cases found with
  | nil =>
      have hSkip : skipBlank (close :: rest) = close :: rest :=
        skipBlank_cons isBlank_nil hClose.isSpace_eq rest
      simp [parts, inside, hSkip]
  | cons first others =>
      rw [List.forall_mem_cons] at hParts
      have hBefore := hSpacing.beforeItem (depth + 1)
      have hSkip :=
        skipBlank_append hBefore hParts.1.starts
          (behind spacing depth close (others.map Prod.fst)
            ++ rest)
      rcases hParts.1.starts.exists_cons with
        ⟨c, tail, hText, -, hNotBracket, hNotBrace⟩
      have hOpen : c ≠ close := by
        rcases hBracket with rfl | rfl
        · exact hNotBracket
        · exact hNotBrace
      rw [List.map_cons, inside, List.append_assoc,
        List.append_assoc] at hLimit ⊢
      rw [parts, hSkip, hText, List.cons_append]
      simp only [beq_iff_eq, hOpen, if_false]
      rw [← List.cons_append, ← hText]
      exact partsFrom_find hSpacing hClose hParts.1 hParts.2
        hBefore hLimit (Nat.lt_succ_self _)

/- A member of an object as text. -/
def memberText
    (spacing : Spacing)
    (key : String)
    (cs : List Char) : List Char :=
  quotedText key ++ spacing.afterKey ++ cs

/- A member is found if its value is. -/
theorem member_finds
    (hSpacing : spacing.IsBlank)
    {inner : List Char → Found Document}
    {cs : List Char}
    {document : Document}
    (hInner : Finds inner limit cs document)
    (key : String) :
    Finds (member inner) limit (memberText spacing key cs)
      (.ok key, document) where
  starts := ⟨_, _, rfl, by decide, by decide, by decide⟩
  found_eq := by
    intro before rest hBefore hRest hLimit
    rcases hSpacing.afterKey with ⟨room, hKey, hRoom⟩
    have hSkip :=
      skipBlank_append hBefore (startsValue_quotedText key)
        (spacing.afterKey ++ (cs ++ rest))
    have hColon (tail : List Char) :
        skipBlank (':' :: tail) = ':' :: tail :=
      rfl
    have hText :=
      textOf_flatMap key (':' :: (room ++ (cs ++ rest)))
    simp only [memberText, quotedText, hKey, List.cons_append,
      List.append_assoc, List.nil_append, List.length_append,
      List.length_cons] at hSkip hLimit ⊢
    have hFound :=
      hInner.found_eq hRoom hRest
        (by simp only [List.length_append]; omega)
    simp only [member, hSkip, hText, beq_self_eq_true, if_true,
      afterColon, hColon, hFound, Found.map]

------------------------------------------------------------
-- Values of Any Shape
------------------------------------------------------------

/- An array is found if its items are. -/
theorem array_finds
    (hSpacing : spacing.IsBlank)
    (depth : Nat)
    (found : List (List Char × Document))
    (hItems :
      ∀ levels, ∀ item ∈ found,
        Finds (value levels) levels item.1 item.2)
    (levels : Nat) :
    Finds (value levels) levels
      (spacing.enclose depth '[' ']' (found.map Prod.fst))
      (.array (found.map Prod.snd) none) := by
  rw [enclose_eq]
  apply finds_of_succ
    (startsValue_cons (by decide) (by decide) (by decide))
  intro levels before rest hBefore _ hLimit
  have hLess :
      (inside spacing depth ']' (found.map Prod.fst)
        ++ rest).length < levels := by
    simp only [List.length_append, List.length_cons]
      at hLimit ⊢
    omega
  have hParts :=
    parts_find hSpacing closes_bracket (Or.inl rfl) depth
      (hItems levels) hLess
  simp only [value, List.cons_append,
    skipBlank_cons hBefore (show isSpace '[' = false by rfl)]
  rw [if_neg (by decide), if_neg (by decide),
    if_neg (by decide), if_neg (by decide),
    if_neg (by decide), if_pos (by rfl), hParts]
  rfl

/- An object is found if the values of its members are. -/
theorem object_finds
    (hSpacing : spacing.IsBlank)
    (depth : Nat)
    (found : List (List Char × Except Fault String × Document))
    (hMembers :
      ∀ levels, ∀ other ∈ found,
        Finds (member (value levels)) levels other.1 other.2)
    (levels : Nat) :
    Finds (value levels) levels
      (spacing.enclose depth '\x7b' '\x7d'
        (found.map Prod.fst))
      (.object (found.map Prod.snd) none) := by
  rw [enclose_eq]
  apply finds_of_succ
    (startsValue_cons (by decide) (by decide) (by decide))
  intro levels before rest hBefore _ hLimit
  have hLess :
      (inside spacing depth '\x7d' (found.map Prod.fst)
        ++ rest).length < levels := by
    simp only [List.length_append, List.length_cons]
      at hLimit ⊢
    omega
  have hParts :=
    parts_find hSpacing closes_brace (Or.inr rfl) depth
      (hMembers levels) hLess
  simp only [value, List.cons_append,
    skipBlank_cons hBefore
      (show isSpace '\x7b' = false by rfl)]
  rw [if_neg (by decide), if_neg (by decide),
    if_neg (by decide), if_neg (by decide),
    if_neg (by decide), if_neg (by decide), if_pos (by rfl),
    hParts]
  rfl

/- Items are written one by one. -/
theorem renderItems_eq_map
    (spacing : Spacing)
    (depth : Nat)
    (items : List Value) :
    Value.renderItems spacing depth items =
      items.map (Value.render spacing depth) := by
  induction items with
  | nil => rfl
  | cons item items ih =>
      rw [Value.renderItems, ih, List.map_cons]

/- So are members. -/
theorem renderMembers_eq_map
    (spacing : Spacing)
    (depth : Nat)
    (members : List (String × Value)) :
    Value.renderMembers spacing depth members =
      members.map fun other =>
        memberText spacing other.1
          (other.2.render spacing depth) := by
  induction members with
  | nil => rfl
  | cons other members ih =>
      rw [Value.renderMembers, ih, List.map_cons]
      rfl

mutual

/- A value is found in its text if its numbers are kept. -/
theorem render_finds
    (hSpacing : spacing.IsBlank) :
    ∀ (shown : Value) (depth levels : Nat),
      (∀ x ∈ shown.binaries, IsKept x) →
        Finds (value levels) levels
          (shown.render spacing depth) (.ofValue shown)
  | .null, _, levels, _ => null_finds levels
  | .boolean flag, _, levels, _ => boolean_finds flag levels
  | .number (.integer n hRange), _, levels, _ =>
      integer_finds n hRange levels
  | .number (.binary x), _, levels, hKept =>
      number_finds (hKept x List.mem_cons_self) levels
  | .text content, _, levels, _ => text_finds content levels
  | .array items, depth, levels, hKept => by
      have hFinds :=
        array_finds hSpacing depth
          (items.map fun item =>
            (item.render spacing (depth + 1), .ofValue item))
          (fun levels =>
            List.forall_mem_map.mpr
              (items_find hSpacing items (depth + 1) levels
                hKept))
          levels
      rw [List.map_map, List.map_map] at hFinds
      rw [Value.render, renderItems_eq_map, Document.ofValue,
        Document.ofItems_eq_map]
      exact hFinds
  | .object members, depth, levels, hKept => by
      have hFinds :=
        object_finds hSpacing depth
          (members.map fun other =>
            (memberText spacing other.1
                (other.2.render spacing (depth + 1)),
              .ok other.1, .ofValue other.2))
          (fun levels =>
            List.forall_mem_map.mpr fun other hOther =>
              member_finds hSpacing
                (members_find hSpacing members (depth + 1)
                  levels hKept other hOther)
                other.1)
          levels
      rw [List.map_map, List.map_map] at hFinds
      rw [Value.render, renderMembers_eq_map, Document.ofValue,
        Document.ofMembers_eq_map]
      exact hFinds

/- So is every item. -/
theorem items_find
    (hSpacing : spacing.IsBlank) :
    ∀ (items : List Value) (depth levels : Nat),
      (∀ x ∈ Value.itemBinaries items, IsKept x) →
        ∀ item ∈ items,
          Finds (value levels) levels
            (item.render spacing depth) (.ofValue item)
  | [], _, _, _ => List.forall_mem_nil _
  | item :: items, depth, levels, hKept =>
      have hBoth := List.forall_mem_append.mp hKept
      List.forall_mem_cons.mpr
        ⟨render_finds hSpacing item depth levels hBoth.1,
          items_find hSpacing items depth levels hBoth.2⟩

/- And the value of every member. -/
theorem members_find
    (hSpacing : spacing.IsBlank) :
    ∀ (members : List (String × Value)) (depth levels : Nat),
      (∀ x ∈ Value.memberBinaries members, IsKept x) →
        ∀ other ∈ members,
          Finds (value levels) levels
            (other.2.render spacing depth) (.ofValue other.2)
  | [], _, _, _ => List.forall_mem_nil _
  | (_, shown) :: members, depth, levels, hKept =>
      have hBoth := List.forall_mem_append.mp hKept
      List.forall_mem_cons.mpr
        ⟨render_finds hSpacing shown depth levels hBoth.1,
          members_find hSpacing members depth levels hBoth.2⟩

end

end Parser

------------------------------------------------------------
-- Whole Texts
------------------------------------------------------------

/- A value is all that its text shows. -/
theorem parse_pretty
    {shown : Value}
    (hKept : ∀ x ∈ shown.binaries, IsKept x) :
    parse shown.pretty = .ofValue shown := by
  have hFound :=
    (Parser.render_finds Spacing.isBlank_wide shown 0
        ((shown.render .wide 0).length + 1) hKept).found_eq
      isBlank_nil endsNumber_nil
      (by
        rw [List.nil_append, List.append_nil]
        exact Nat.lt_succ_self _)
  rw [List.nil_append, List.append_nil] at hFound
  rw [Value.pretty, parse, String.toList_ofList, hFound]
  rfl

/- The standard library stores a value if it may. -/
theorem standard_stores
    {shown : Value}
    (hKept : ∀ x ∈ shown.binaries, IsKept x) :
    Codec.Stores shown :=
  ⟨shown.pretty, rfl, parse_pretty hKept⟩

/- It keeps the numbers that are read back from their texts. -/
theorem standard_keeps_iff {x : Binary64} :
    Codec.Keeps x ↔ IsKept x := by
  constructor
  · rintro ⟨text, hPrint, hParse⟩
    have hText : (Value.number (.binary x)).pretty = text :=
      Except.ok.inj hPrint
    have hValue :=
      @Parser.value_numberText (.binary x)
        (numberText (.binary x)).length [] [] isBlank_nil
    have hFound :
        (Parser.number (numberText (.binary x))).content =
          .number (.binary x) := by
      have hShown := congrArg Source.document hParse
      rw [← hText] at hShown
      change (parse (Value.pretty _)).document = _ at hShown
      rw [Value.pretty, parse, String.toList_ofList] at hShown
      rw [List.nil_append, List.append_nil] at hValue
      rw [← hValue]
      exact hShown
    rw [Parser.number] at hFound
    split at hFound
    · next found rest hRead =>
        have hSame : found = .binary x :=
          Document.number.inj hFound
        rw [hSame] at hRead
        have hAlone := readNumber_append hRead endsNumber_nil
        rw [List.append_nil] at hAlone
        exact hAlone
    · cases hFound
    · cases hFound
  · intro hKept
    apply standard_stores
    intro y hMem
    rw [List.mem_singleton.mp hMem]
    exact hKept

/- Not all numbers are, as some are rounded twice. -/
example :
    ¬ IsKept
      ((Binary64.ofDecimal? false 1 (-28)).getD (.zero false)) := by
  unfold IsKept
  decide +kernel

/- It follows the format. -/
theorem standard_isFaithful : Codec.IsFaithful where
  stores := fun {_} hKeeps =>
    standard_stores fun x hMem =>
      standard_keeps_iff.mp (hKeeps x hMem)

end Json

end PipelineScript
