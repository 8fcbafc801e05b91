/-
  Readers of the parts of a TOML text.

  A reader takes at least one character or fails, and a gap is
  what may be passed over between two parts.

  Key definitions include:
    * `Toml.Gap`
    * `Toml.Reader`
    * `Toml.Reader.andThen`
    * `Toml.Reader.orElse`
    * `Toml.Reader.separated`
    * `Toml.Reader.enclosed`
-/

namespace PipelineScript

namespace Toml

------------------------------------------------------------
-- Gaps
------------------------------------------------------------

/- A way to pass over what does not count. -/
structure Gap where
  skip : List Char → List Char
  shrinks : ∀ cs, (skip cs).length ≤ cs.length

namespace Gap

/- Characters of one class, as many as there are. -/
def ofClass (isMember : Char → Bool) : Gap where
  skip := List.dropWhile isMember
  shrinks := fun _ =>
    (List.dropWhile_sublist isMember).length_le

end Gap

------------------------------------------------------------
-- Readers
------------------------------------------------------------

/-
  A way to read a value from the front of a text, with what
  follows it, which is always shorter than the text.
-/
structure Reader (α : Type) where
  run : List Char → Option (α × List Char)
  shrinks :
    ∀ {cs rest : List Char} {value : α},
      run cs = some (value, rest) → rest.length < cs.length

namespace Reader

variable {α β γ : Type}

/- The given character. -/
def exact (c : Char) : Reader Unit where
  run := fun cs =>
    match cs with
    | [] => none
    | d :: rest => if d == c then some ((), rest) else none
  shrinks := by
    intro cs rest value h
    split at h
    · simp at h
    · split at h
      · simp only [Option.some.injEq, Prod.mk.injEq] at h
        rw [← h.2]
        exact Nat.lt_succ_self _
      · simp at h

/- A value that a function does not refuse. -/
def filterMap
    (f : α → Option β)
    (reader : Reader α) : Reader β where
  run := fun cs =>
    match reader.run cs with
    | none => none
    | some (value, rest) => (f value).map fun made => (made, rest)
  shrinks := by
    intro cs rest value h
    split at h
    · simp at h
    · next read after hRead =>
        obtain ⟨_, _, hMade⟩ := Option.map_eq_some_iff.1 h
        simp only [Prod.mk.injEq] at hMade
        rw [← hMade.2]
        exact reader.shrinks hRead

/- A value behind a function. -/
def map
    (f : α → β)
    (reader : Reader α) : Reader β :=
  reader.filterMap fun value => some (f value)

/- Two values, one behind the other. -/
def andThen
    (first : Reader α)
    (second : Reader β) : Reader (α × β) where
  run := fun cs =>
    match first.run cs with
    | none => none
    | some (a, middle) =>
        match second.run middle with
        | none => none
        | some (b, rest) => some ((a, b), rest)
  shrinks := by
    intro cs rest value h
    split at h
    · simp at h
    · next a middle hFirst =>
        split at h
        · simp at h
        · next b after hSecond =>
            simp only [Option.some.injEq, Prod.mk.injEq] at h
            rw [← h.2]
            exact Nat.lt_trans (second.shrinks hSecond)
              (first.shrinks hFirst)

/- A value in front of something that is only needed. -/
def before
    (reader : Reader α)
    (mark : Reader β) : Reader α :=
  (reader.andThen mark).map Prod.fst

/- A value behind something that is only needed. -/
def behind
    (reader : Reader α)
    (mark : Reader β) : Reader α :=
  (mark.andThen reader).map Prod.snd

/- What the first reader reads, or else the second. -/
def orElse
    (first second : Reader α) : Reader α where
  run := fun cs =>
    match first.run cs with
    | some read => some read
    | none => second.run cs
  shrinks := by
    intro cs rest value h
    split at h
    · next read hFirst =>
        simp only [Option.some.injEq] at h
        subst h
        exact first.shrinks hFirst
    · exact second.shrinks h

/- A value with a gap in front of it. -/
def afterGap
    (gap : Gap)
    (reader : Reader α) : Reader α where
  run := fun cs => reader.run (gap.skip cs)
  shrinks := fun h =>
    Nat.lt_of_lt_of_le (reader.shrinks h) (gap.shrinks _)

/- A value with a gap behind it. -/
def beforeGap
    (gap : Gap)
    (reader : Reader α) : Reader α where
  run := fun cs =>
    match reader.run cs with
    | none => none
    | some (value, rest) => some (value, gap.skip rest)
  shrinks := by
    intro cs rest value h
    split at h
    · simp at h
    · next read after hRead =>
        simp only [Option.some.injEq, Prod.mk.injEq] at h
        rw [← h.2]
        exact Nat.lt_of_le_of_lt (gap.shrinks after)
          (reader.shrinks hRead)

/- A character of a class. -/
def member (isMember : Char → Bool) : Reader Char where
  run := fun cs =>
    match cs with
    | [] => none
    | c :: rest => if isMember c then some (c, rest) else none
  shrinks := by
    intro cs rest value h
    split at h
    · simp at h
    · split at h
      · simp only [Option.some.injEq, Prod.mk.injEq] at h
        rw [← h.2]
        exact Nat.lt_succ_self _
      · simp at h

/- At least one character of a class, and all that follow. -/
def run1 (isMember : Char → Bool) : Reader (List Char) where
  run := fun cs =>
    match cs with
    | [] => none
    | c :: rest =>
        if isMember c then
          some
            (c :: rest.takeWhile isMember,
              rest.dropWhile isMember)
        else
          none
  shrinks := by
    intro cs rest value h
    split at h
    · simp at h
    · split at h
      · simp only [Option.some.injEq, Prod.mk.injEq] at h
        rw [← h.2]
        exact Nat.lt_succ_of_le
          (List.dropWhile_sublist isMember).length_le
      · simp at h

------------------------------------------------------------
-- Repetition
------------------------------------------------------------

/- Values, each of them behind a mark, as many as follow. -/
def separatedFrom
    (mark : Char)
    (reader : Reader α)
    (cs : List Char) : List α × List Char :=
  match h : ((exact mark).andThen reader).run cs with
  | none => ([], cs)
  | some ((_, value), rest) =>
      have : rest.length < cs.length :=
        ((exact mark).andThen reader).shrinks h
      let others := separatedFrom mark reader rest
      (value :: others.1, others.2)
termination_by cs.length

/- Reading values makes a text no longer. -/
theorem length_separatedFrom_le
    (mark : Char)
    (reader : Reader α)
    (cs : List Char) :
    (separatedFrom mark reader cs).2.length ≤ cs.length := by
  fun_induction separatedFrom mark reader cs with
  | case1 => exact Nat.le_refl _
  | case2 cs _ value rest _ hLt _ ih =>
      exact Nat.le_of_lt (Nat.lt_of_le_of_lt ih hLt)

/- At least one value, with marks between them. -/
def separated
    (mark : Char)
    (reader : Reader α) : Reader (List α) where
  run := fun cs =>
    match reader.run cs with
    | none => none
    | some (value, rest) =>
        let others := separatedFrom mark reader rest
        some (value :: others.1, others.2)
  shrinks := by
    intro cs rest value h
    split at h
    · simp at h
    · next first after hFirst =>
        simp only [Option.some.injEq, Prod.mk.injEq] at h
        rw [← h.2]
        exact Nat.lt_of_le_of_lt
          (length_separatedFrom_le mark reader after)
          (reader.shrinks hFirst)

/- Drop a character at the front if it is there. -/
def dropMark
    (mark : Char)
    (cs : List Char) : List Char :=
  match cs with
  | [] => []
  | c :: rest => if c == mark then rest else c :: rest

/- Dropping a character makes a text no longer. -/
theorem length_dropMark_le
    (mark : Char)
    (cs : List Char) :
    (dropMark mark cs).length ≤ cs.length := by
  unfold dropMark
  split
  · exact Nat.le_refl _
  · split
    · exact Nat.le_succ _
    · exact Nat.le_refl _

/-
  Values between an opening and a closing character, with
  commas between them. The values pass over their own gaps.
  A comma may stand behind the last one where that is allowed.
-/
def enclosed
    (opening closing : Char)
    (allowsLast : Bool)
    (gap : Gap)
    (reader : Reader α) : Reader (List α) where
  run := fun cs =>
    match (exact opening).run cs with
    | none => none
    | some (_, inner) =>
        match (separated ',' reader).run inner with
        | none =>
            ((exact closing).run (gap.skip inner)).map
              fun read => ([], read.2)
        | some (values, rest) =>
            let last := if allowsLast then dropMark ',' rest else rest
            ((exact closing).run (gap.skip last)).map
              fun read => (values, read.2)
  shrinks := by
    intro cs rest value h
    split at h
    · simp at h
    · next inner hOpen =>
        have hInner := (exact opening).shrinks hOpen
        split at h
        · obtain ⟨read, hRead, hMade⟩ :=
            Option.map_eq_some_iff.1 h
          simp only [Prod.mk.injEq] at hMade
          have hClose := (exact closing).shrinks hRead
          have hGap := gap.shrinks inner
          rw [← hMade.2]
          omega
        · next values after hValues =>
            obtain ⟨read, hRead, hMade⟩ :=
              Option.map_eq_some_iff.1 h
            simp only [Prod.mk.injEq] at hMade
            have hAfter := (separated ',' reader).shrinks hValues
            have hClose := (exact closing).shrinks hRead
            have hLast :
                (if allowsLast then
                  dropMark ',' after else after).length ≤
                  after.length := by
              split
              · exact length_dropMark_le ',' after
              · exact Nat.le_refl _
            have hGap :=
              gap.shrinks
                (if allowsLast then dropMark ',' after else after)
            rw [← hMade.2]
            omega

end Reader

end Toml

end PipelineScript
