import PipelineScript.Toml.Reader

/-
  What may stand between the parts of a TOML text: spaces,
  comments, and the ends of lines.

  Key definitions include:
    * `Toml.spaces`
    * `Toml.lineBreak?`
    * `Toml.lineEnd?`
    * `Toml.breaks`
-/

namespace PipelineScript

namespace Toml

------------------------------------------------------------
-- Spaces and Comments
------------------------------------------------------------

/- A space or a tab. -/
def isSpace (c : Char) : Bool :=
  c == ' ' || c == '\t'

/- Spaces and tabs. -/
def spaces : Gap :=
  .ofClass isSpace

/- A character of a comment: a tab or one that can be seen. -/
def isCommentChar (c : Char) : Bool :=
  c == '\t' || (0x20 ≤ c.toNat && c.toNat != 0x7F)

/- What follows a comment, if there is one at the front. -/
def skipComment (cs : List Char) : List Char :=
  match cs with
  | '#' :: rest => rest.dropWhile isCommentChar
  | _ => cs

/- Passing over a comment makes a text no longer. -/
theorem length_skipComment_le (cs : List Char) :
    (skipComment cs).length ≤ cs.length := by
  unfold skipComment
  split
  · next rest =>
      exact Nat.le_succ_of_le
        (List.dropWhile_sublist isCommentChar).length_le
  · exact Nat.le_refl _

------------------------------------------------------------
-- Ends of Lines
------------------------------------------------------------

/- What follows a line break, with or without a return. -/
def lineBreak? (cs : List Char) : Option (List Char) :=
  match cs with
  | '\n' :: rest => some rest
  | '\r' :: '\n' :: rest => some rest
  | _ => none

/- A line break takes a character. -/
theorem length_lt_of_lineBreak
    {cs rest : List Char}
    (h : lineBreak? cs = some rest) :
    rest.length < cs.length := by
  unfold lineBreak? at h
  split at h
  · simp only [Option.some.injEq] at h
    subst h
    simp
  · simp only [Option.some.injEq] at h
    subst h
    simp only [List.length_cons]
    omega
  · simp at h

/-
  What follows a line that has nothing more to say: spaces, a
  comment, and a break or the end of the text.
-/
def lineEnd? (cs : List Char) : Option (List Char) :=
  match skipComment (spaces.skip cs) with
  | [] => some []
  | c :: rest => lineBreak? (c :: rest)

/- The end of a line makes a text no longer. -/
theorem length_le_of_lineEnd
    {cs rest : List Char}
    (h : lineEnd? cs = some rest) :
    rest.length ≤ cs.length := by
  have hSkip :=
    Nat.le_trans (length_skipComment_le (spaces.skip cs))
      (spaces.shrinks cs)
  unfold lineEnd? at h
  split at h
  · simp only [Option.some.injEq] at h
    subst h
    exact Nat.zero_le _
  · next c tail hTail =>
      rw [hTail] at hSkip
      exact Nat.le_trans
        (Nat.le_of_lt (length_lt_of_lineBreak h)) hSkip

/- The end of a line takes a character if there is one. -/
theorem length_lt_of_lineEnd
    {c : Char}
    {cs rest : List Char}
    (h : lineEnd? (c :: cs) = some rest) :
    rest.length < (c :: cs).length := by
  have hSkip :=
    Nat.le_trans (length_skipComment_le (spaces.skip (c :: cs)))
      (spaces.shrinks (c :: cs))
  unfold lineEnd? at h
  split at h
  · simp only [Option.some.injEq] at h
    subst h
    simp
  · next d tail hTail =>
      rw [hTail] at hSkip
      exact Nat.lt_of_lt_of_le (length_lt_of_lineBreak h) hSkip

------------------------------------------------------------
-- Gaps over Several Lines
------------------------------------------------------------

/- What follows spaces, comments and line breaks. -/
def skipBreaks (cs : List Char) : List Char :=
  match cs with
  | [] => []
  | c :: rest =>
      if isSpace c then
        skipBreaks rest
      else
        match h : lineBreak? (skipComment (c :: rest)) with
        | none => c :: rest
        | some after =>
            have : after.length < rest.length + 1 :=
              Nat.lt_of_lt_of_le (length_lt_of_lineBreak h)
                (length_skipComment_le _)
            skipBreaks after
termination_by cs.length

/- Passing over lines makes a text no longer. -/
theorem length_skipBreaks_le (cs : List Char) :
    (skipBreaks cs).length ≤ cs.length := by
  fun_induction skipBreaks cs with
  | case1 => exact Nat.le_refl _
  | case2 c rest hSpace ih => exact Nat.le_succ_of_le ih
  | case3 => exact Nat.le_refl _
  | case4 c rest hSpace after h hLt ih =>
      exact Nat.le_of_lt (Nat.lt_of_le_of_lt ih hLt)

/- Spaces, comments and line breaks. -/
def breaks : Gap where
  skip := skipBreaks
  shrinks := length_skipBreaks_le

end Toml

end PipelineScript
