import PipelineScript.Proofs.Text.Lines

/-
  Comments that declare the encoding of a script.

  A reader of a script takes the encoding from a comment on
  one of the first two lines that matches a regular expression:

    `^[ \t\f]*#.*?coding[:=][ \t]*[-_.a-zA-Z0-9]+`

  Key definitions include:
    * `Encoding.IsNamedIn`
    * `Encoding.Declares`
    * `Encoding.isDeclaration`

  Key theorems include:
    * `Encoding.declares_iff`
    * `Encoding.not_declares_of_start`
    * `Encoding.declares_comment_iff`
-/

namespace PipelineScript

namespace Encoding

------------------------------------------------------------
-- Declarations
------------------------------------------------------------

/- What may be in front of the mark of a comment. -/
def isMargin (c : Char) : Bool :=
  c == ' ' || c == '\t' || c == '\x0c'

/- What is between the word and the name of an encoding. -/
def isSign (c : Char) : Bool :=
  c == ':' || c == '='

/- What may be in front of the name. -/
def isGap (c : Char) : Bool :=
  c == ' ' || c == '\t'

/- What the name of an encoding is made of. -/
def isNamePart (c : Char) : Bool :=
  c.isAlphanum || c == '-' || c == '_' || c == '.'

/- The word, a sign, and the first letter of a name. -/
def BeginsWithName (cs : List Char) : Prop :=
  ∃ sign gap letter rest,
    cs = "coding".toList ++ sign :: (gap ++ letter :: rest) ∧
      isSign sign ∧ (∀ c ∈ gap, isGap c) ∧ isNamePart letter

/- An encoding is named somewhere. -/
def IsNamedIn (cs : List Char) : Prop :=
  ∃ before named, cs = before ++ named ∧ BeginsWithName named

/- A line is a comment in which an encoding is named. -/
def Declares (line : String) : Prop :=
  ∃ margin text,
    line.toList = margin ++ '#' :: text ∧
      (∀ c ∈ margin, isMargin c) ∧ IsNamedIn text

------------------------------------------------------------
-- Matching
------------------------------------------------------------

/- Characters of a kind are skipped, any number of them. -/
def behind
    (skips : Char → Bool)
    (accepts : List Char → Bool) : List Char → Bool
  | [] => accepts []
  | c :: rest =>
      accepts (c :: rest)
        || (skips c && behind skips accepts rest)

/- They are, if they are in front of what is accepted. -/
theorem behind_iff
    {skips : Char → Bool}
    {accepts : List Char → Bool}
    {cs : List Char} :
    behind skips accepts cs ↔
      ∃ front back,
        cs = front ++ back ∧ (∀ c ∈ front, skips c) ∧
          accepts back := by
  induction cs with
  | nil => simp [behind, and_assoc]
  | cons c cs ih =>
      rw [behind, Bool.or_eq_true, Bool.and_eq_true, ih]
      constructor
      · rintro (hNow | ⟨hSkip, front, back, rfl, hFront, hBack⟩)
        · exact ⟨[], c :: cs, rfl, by simp, hNow⟩
        · refine ⟨c :: front, back, rfl, ?_, hBack⟩
          rw [List.forall_mem_cons]
          exact ⟨hSkip, hFront⟩
      · rintro ⟨front, back, hCs, hFront, hBack⟩
        cases front with
        | nil =>
            left
            rw [List.nil_append] at hCs
            rw [hCs]
            exact hBack
        | cons d front =>
            right
            rw [List.cons_append, List.cons.injEq] at hCs
            rw [List.forall_mem_cons] at hFront
            rw [hCs.1]
            exact ⟨hFront.1, front, back, hCs.2, hFront.2, hBack⟩

/- A name begins here. -/
def isName : List Char → Bool
  | [] => false
  | c :: _ => isNamePart c

/- A sign is here, and a name behind it. -/
def isSigned : List Char → Bool
  | [] => false
  | c :: rest => isSign c && behind isGap isName rest

/- The word is here, and a sign and a name behind it. -/
def isWord (cs : List Char) : Bool :=
  "coding".toList.isPrefixOf cs && isSigned (cs.drop 6)

/- A mark is here, and the word somewhere behind it. -/
def isMarked : List Char → Bool
  | [] => false
  | c :: rest => c == '#' && behind (fun _ => true) isWord rest

/- A line declares an encoding. -/
def isDeclaration (line : String) : Bool :=
  behind isMargin isMarked line.toList

/- A sign is followed by a gap and the first letter of a name. -/
theorem isSigned_iff {cs : List Char} :
    isSigned cs ↔
      ∃ sign gap letter rest,
        cs = sign :: (gap ++ letter :: rest) ∧
          isSign sign ∧ (∀ c ∈ gap, isGap c) ∧
          isNamePart letter := by
  cases cs with
  | nil => simp [isSigned]
  | cons sign cs =>
      rw [isSigned, Bool.and_eq_true, behind_iff]
      constructor
      · rintro ⟨hSign, gap, named, rfl, hGap, hName⟩
        cases named with
        | nil => cases hName
        | cons letter rest =>
            exact ⟨sign, gap, letter, rest, rfl, hSign, hGap,
              hName⟩
      · rintro ⟨_, gap, letter, rest, ⟨⟩, hSign, hGap,
          hLetter⟩
        exact ⟨hSign, gap, letter :: rest, rfl, hGap, hLetter⟩

/- The word is followed by a sign and a name. -/
theorem isWord_iff {cs : List Char} :
    isWord cs ↔ BeginsWithName cs := by
  rw [isWord, Bool.and_eq_true, List.isPrefixOf_iff_prefix,
    isSigned_iff]
  constructor
  · rintro ⟨⟨signed, rfl⟩, sign, gap, letter, rest, hSigned,
      hAll⟩
    refine ⟨sign, gap, letter, rest, ?_, hAll⟩
    rw [← hSigned]
    rfl
  · rintro ⟨sign, gap, letter, rest, rfl, hAll⟩
    exact ⟨List.prefix_append _ _, sign, gap, letter, rest, rfl,
      hAll⟩

/- Matching tells what declares an encoding. -/
theorem declares_iff {line : String} :
    Declares line ↔ isDeclaration line := by
  rw [isDeclaration, behind_iff]
  constructor
  · rintro ⟨margin, text, hLine, hMargin, before, named, rfl,
      hNamed⟩
    refine ⟨margin, _, hLine, hMargin, ?_⟩
    have hWord :
        behind (fun _ => true) isWord (before ++ named) :=
      behind_iff.mpr
        ⟨before, named, rfl, fun _ _ => rfl,
          isWord_iff.mpr hNamed⟩
    simpa [isMarked] using hWord
  · rintro ⟨margin, marked, hLine, hMargin, hMarked⟩
    cases marked with
    | nil => cases hMarked
    | cons c text =>
        rw [isMarked, Bool.and_eq_true, beq_iff_eq,
          behind_iff] at hMarked
        rcases hMarked with ⟨rfl, before, named, rfl, -, hWord⟩
        exact ⟨margin, _, hLine, hMargin, before, named, rfl,
          isWord_iff.mp hWord⟩

instance (line : String) : Decidable (Declares line) :=
  decidable_of_iff _ declares_iff.symm

------------------------------------------------------------
-- Lines of Scripts
------------------------------------------------------------

/- A line that begins with anything but a mark declares none. -/
theorem not_declares_of_start
    {line : String}
    {margin rest : List Char}
    {c : Char}
    (hLine : line.toList = margin ++ c :: rest)
    (hMargin : ∀ d ∈ margin, isMargin d)
    (hStart : isMargin c = false)
    (hMark : c ≠ '#') :
    ¬ Declares line := by
  rintro ⟨other, text, hOther, hOthers, -⟩
  have hSame :=
    congrArg (List.dropWhile isMargin) (hOther.symm.trans hLine)
  rw [List.dropWhile_append_of_pos hOthers,
    List.dropWhile_append_of_pos hMargin,
    List.dropWhile_cons_of_neg (by decide),
    List.dropWhile_cons_of_neg (by simp [hStart])] at hSame
  exact hMark (List.cons.inj hSame).1.symm

/- A remark declares one if it names one anywhere. -/
theorem declares_comment_iff {text : String} :
    Declares ("# " ++ text) ↔ IsNamedIn text.toList := by
  have hLine :
      ("# " ++ text).toList = '#' :: ' ' :: text.toList := by
    rw [String.toList_append]
    rfl
  unfold Declares
  rw [hLine]
  constructor
  · rintro ⟨margin, rest, hSame, hMargin, before, named, rfl,
      hNamed⟩
    cases margin with
    | cons c margin =>
        rw [List.forall_mem_cons] at hMargin
        cases (List.cons.inj hSame).1
        cases hMargin.1
    | nil =>
        have hText := (List.cons.inj hSame).2
        cases before with
        | nil =>
            rcases hNamed with ⟨sign, gap, letter, last, rfl, -⟩
            cases hText
        | cons c before =>
            exact ⟨before, named, (List.cons.inj hText).2,
              hNamed⟩
  · rintro ⟨before, named, hText, hNamed⟩
    refine ⟨[], _, rfl, List.forall_mem_nil _, ' ' :: before,
      named, ?_, hNamed⟩
    rw [hText, List.cons_append]

end Encoding

end PipelineScript
