import PipelineScript.Toml.Gaps

/-
  What readers read that are made of other readers, where it
  is known what those read.

  Key theorems include:
    * `Toml.Reader.run_map`
    * `Toml.Reader.run_andThen`
    * `Toml.Reader.run_orElse_of_none`
    * `Toml.Reader.run_separated`
    * `Toml.lineEnd_of_start`
-/

namespace PipelineScript

namespace Toml

namespace Reader

variable {α β : Type}
variable {reader first second : Reader α} {next : Reader β}
variable {cs middle rest : List Char} {value : α} {other : β}

/- The given character is taken from the front. -/
theorem run_exact
    (c : Char)
    (rest : List Char) :
    (exact c).run (c :: rest) = some ((), rest) := by
  simp [exact]

/- Another character is not. -/
theorem run_exact_of_ne
    {c d : Char}
    (hOther : d ≠ c)
    (rest : List Char) :
    (exact c).run (d :: rest) = none := by
  simp [exact, hOther]

/- A value goes through a function that accepts it. -/
theorem run_filterMap
    {f : α → Option β}
    (hRead : reader.run cs = some (value, rest))
    (hAccept : f value = some other) :
    (reader.filterMap f).run cs = some (other, rest) := by
  simp [filterMap, hRead, hAccept]

/- A value goes through a function. -/
theorem run_map
    {f : α → β}
    (hRead : reader.run cs = some (value, rest)) :
    (reader.map f).run cs = some (f value, rest) :=
  run_filterMap hRead rfl

/- Two values are read one behind the other. -/
theorem run_andThen
    (hFirst : reader.run cs = some (value, middle))
    (hNext : next.run middle = some (other, rest)) :
    (reader.andThen next).run cs =
      some ((value, other), rest) := by
  simp [andThen, hFirst, hNext]

/- A value is read in front of what is only needed. -/
theorem run_before
    (hFirst : reader.run cs = some (value, middle))
    (hNext : next.run middle = some (other, rest)) :
    (reader.before next).run cs = some (value, rest) :=
  run_map (run_andThen hFirst hNext)

/- A value is read behind what is only needed. -/
theorem run_behind
    (hFirst : reader.run cs = some (value, middle))
    (hNext : next.run middle = some (other, rest)) :
    (next.behind reader).run cs = some (other, rest) :=
  run_map (run_andThen hFirst hNext)

/- Nothing is read behind what is missing. -/
theorem run_behind_of_none
    (hNone : reader.run cs = none) :
    (next.behind reader).run cs = none := by
  simp [behind, map, filterMap, andThen, hNone]

/- Nothing is read if there is nothing behind what is needed. -/
theorem run_behind_of_next_none
    (hFirst : reader.run cs = some (value, middle))
    (hNone : next.run middle = none) :
    (next.behind reader).run cs = none := by
  simp [behind, map, filterMap, andThen, hFirst, hNone]

/- Nothing is read in front either if nothing is there. -/
theorem run_before_of_none
    (hNone : reader.run cs = none) :
    (reader.before next).run cs = none := by
  simp [before, map, filterMap, andThen, hNone]

/- A value is read behind a gap. -/
theorem run_afterGap
    {gap : Gap}
    (hSkip : gap.skip cs = middle)
    (hRead : reader.run middle = some (value, rest)) :
    (reader.afterGap gap).run cs = some (value, rest) := by
  simp [afterGap, hSkip, hRead]

/- The first reader comes first. -/
theorem run_orElse_of_some
    (hFirst : first.run cs = some (value, rest)) :
    (first.orElse second).run cs = some (value, rest) := by
  simp [orElse, hFirst]

/- The second one is asked if the first reads nothing. -/
theorem run_orElse_of_none
    (hFirst : first.run cs = none) :
    (first.orElse second).run cs = second.run cs := by
  simp [orElse, hFirst]

/- A value that is not there does not go through a function. -/
theorem run_map_of_none
    {f : α → β}
    (hNone : reader.run cs = none) :
    (reader.map f).run cs = none := by
  simp [map, filterMap, hNone]

/- One value is read where no mark follows it. -/
theorem separatedFrom_of_head_ne
    {mark : Char}
    (hRest : cs.head? ≠ some mark) :
    separatedFrom mark reader cs = ([], cs) := by
  have hNone : ((exact mark).andThen reader).run cs = none := by
    cases cs with
    | nil => rfl
    | cons c cs =>
        have hOther : c ≠ mark := by
          simpa using hRest
        simp [andThen, run_exact_of_ne hOther]
  rw [separatedFrom]
  split
  · rfl
  · next hSome =>
      rw [hNone] at hSome
      simp at hSome

/- Another value is read behind its mark. -/
theorem separatedFrom_of_mark
    {mark : Char}
    (hRead : reader.run cs = some (value, rest)) :
    separatedFrom mark reader (mark :: cs) =
      (value :: (separatedFrom mark reader rest).1,
        (separatedFrom mark reader rest).2) := by
  have hBoth :
      ((exact mark).andThen reader).run (mark :: cs) =
        some (((), value), rest) :=
    run_andThen (run_exact mark cs) hRead
  rw [separatedFrom]
  split
  · next hNone =>
      rw [hBoth] at hNone
      simp at hNone
  · next found after hSome =>
      rw [hBoth, Option.some.injEq, Prod.mk.injEq,
        Prod.mk.injEq] at hSome
      rcases hSome with ⟨⟨-, rfl⟩, rfl⟩
      rfl

/- Values are read if the first one and those behind it are. -/
theorem run_separated
    {mark : Char}
    {others : List α}
    (hFirst : reader.run cs = some (value, middle))
    (hOthers :
      separatedFrom mark reader middle = (others, rest)) :
    (separated mark reader).run cs =
      some (value :: others, rest) := by
  simp [separated, hFirst, hOthers]

end Reader

------------------------------------------------------------
-- Gaps
------------------------------------------------------------

variable {cs : List Char} {c : Char}

/- There is no gap in front of what is no space. -/
theorem spaces_skip_cons
    (hSpace : isSpace c = false)
    (rest : List Char) :
    spaces.skip (c :: rest) = c :: rest :=
  List.dropWhile_cons_of_neg (by simp [hSpace])

/- A line ends at its break. -/
theorem lineEnd_break (rest : List Char) :
    lineEnd? ('\n' :: rest) = some rest := by
  rw [lineEnd?, spaces_skip_cons (by decide)]
  rfl

/- A line that has something to say does not end in front. -/
theorem lineEnd_of_start
    (hSpace : isSpace c = false)
    (hComment : c ≠ '#')
    (hBreak : ∀ rest, lineBreak? (c :: rest) = none)
    (rest : List Char) :
    lineEnd? (c :: rest) = none := by
  have hSkip : skipComment (c :: rest) = c :: rest := by
    unfold skipComment
    split
    · next tail hSame =>
        exact absurd (List.cons.inj hSame).1 hComment
    · rfl
  rw [lineEnd?, spaces_skip_cons hSpace, hSkip]
  exact hBreak rest

end Toml

end PipelineScript
