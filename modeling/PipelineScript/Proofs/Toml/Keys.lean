import PipelineScript.Proofs.Toml.Texts
import PipelineScript.Toml.Parser

/-
  Keys and paths that were written are read back.

  Key definitions include:
    * `Toml.StartsKey`
    * `Toml.EndsKey`

  Key theorems include:
    * `Toml.key_writtenKey`
    * `Toml.keyPath_writtenPath`
-/

namespace PipelineScript

namespace Toml

open Reader

variable {cs rest : List Char} {c : Char}

------------------------------------------------------------
-- Where Keys Begin and End
------------------------------------------------------------

/- A character that a written key begins with. -/
def StartsKey (c : Char) : Prop :=
  isBareKeyChar c ∨ c = '"' ∨ c = '\x27'

/- What follows a key does not go on with it. -/
def EndsKey (rest : List Char) : Prop :=
  ∀ c ∈ rest.head?, isBareKeyChar c = false

/- A key ends in front of a character that is in none. -/
theorem endsKey_cons
    (hOther : isBareKeyChar c = false) :
    EndsKey (c :: rest) := by
  intro d hHead
  rw [List.head?_cons, Option.mem_some_iff] at hHead
  exact hHead ▸ hOther

/- Other characters begin no key. -/
theorem StartsKey.ne
    {other : Char}
    (hStarts : StartsKey c)
    (hBare : isBareKeyChar other = false)
    (hQuotes : other ≠ '"' ∧ other ≠ '\x27') :
    c ≠ other := by
  rintro rfl
  rcases hStarts with hBareKey | hDouble | hSingle
  · exact absurd hBareKey (by simp [hBare])
  · exact hQuotes.1 hDouble
  · exact hQuotes.2 hSingle

/- No key begins with a space. -/
theorem StartsKey.isSpace_eq
    (hStarts : StartsKey c) :
    isSpace c = false := by
  unfold isSpace
  simp only [Bool.or_eq_false_iff, beq_eq_false_iff_ne]
  exact ⟨hStarts.ne (by decide) (by decide),
    hStarts.ne (by decide) (by decide)⟩

/- A line with a key has something to say. -/
theorem StartsKey.lineEnd_eq
    (hStarts : StartsKey c)
    (rest : List Char) :
    lineEnd? (c :: rest) = none := by
  apply lineEnd_of_start hStarts.isSpace_eq
    (hStarts.ne (by decide) (by decide))
  intro rest
  unfold lineBreak?
  split
  · next hSame =>
      exact absurd (List.cons.inj hSame).1
        (hStarts.ne (by decide) (by decide))
  · next hSame =>
      exact absurd (List.cons.inj hSame).1
        (hStarts.ne (by decide) (by decide))
  · rfl

/- A bare key has a character, and only such characters. -/
theorem of_keyQuotingOf_none
    (hQuoting : keyQuotingOf cs = none) :
    cs ≠ [] ∧ ∀ c ∈ cs, isBareKeyChar c := by
  unfold keyQuotingOf at hQuoting
  split at hQuoting
  · next hBare =>
      simpa using hBare
  split at hQuoting
  · simp at hQuoting
  split at hQuoting
  · simp at hQuoting
  split at hQuoting
  · simp at hQuoting
  · simp at hQuoting

/- A key in single quotes is plain and has none of them. -/
theorem of_keyQuotingOf_some
    {quoting : Quoting}
    (hQuoting : keyQuotingOf cs = some quoting) :
    quoting = .basic ∨
      quoting = .literal ∧
        ∀ c ∈ cs, isPlain c ∧ c ≠ '\x27' := by
  unfold keyQuotingOf at hQuoting
  split at hQuoting
  · simp at hQuoting
  split at hQuoting
  · exact Or.inl (Option.some.inj hQuoting).symm
  split at hQuoting
  · exact Or.inl (Option.some.inj hQuoting).symm
  split at hQuoting
  · next hPrinted _ hFree =>
      simp only [Bool.or_eq_true, not_or, Bool.not_eq_true,
        List.contains_eq_mem, decide_eq_false_iff_not]
        at hPrinted
      simp only [Bool.not_eq_true', List.contains_eq_mem,
        decide_eq_false_iff_not] at hFree
      refine Or.inr ⟨(Option.some.inj hQuoting).symm, ?_⟩
      intro c hMem
      have hPlain :=
        isPlain_of_any_isUnprinted hPrinted.1 c hMem
      refine ⟨hPlain.resolve_right ?_, ?_⟩
      · rintro rfl
        exact hPrinted.2 hMem
      · rintro rfl
        exact hFree hMem
  · exact Or.inl (Option.some.inj hQuoting).symm

/- A written key begins as keys do. -/
theorem exists_writtenKey_cons (key : String) :
    ∃ c tail,
      (writtenKey key).toList = c :: tail ∧ StartsKey c := by
  unfold writtenKey
  split
  · next hNone =>
      rcases of_keyQuotingOf_none hNone with ⟨hSome, hBare⟩
      rcases List.exists_cons_of_ne_nil hSome with
        ⟨c, tail, hText⟩
      refine ⟨c, tail, hText, Or.inl (hBare c ?_)⟩
      rw [hText]
      exact List.mem_cons_self
  · next quoting hSome =>
      rw [String.toList_ofList]
      rcases of_keyQuotingOf_some hSome with
        rfl | ⟨rfl, -⟩
      · exact ⟨_, _, rfl, Or.inr (Or.inl rfl)⟩
      · exact ⟨_, _, rfl, Or.inr (Or.inr rfl)⟩

------------------------------------------------------------
-- Keys
------------------------------------------------------------

/- All characters of a class are taken, and none behind them. -/
theorem run1_append
    {isMember : Char → Bool}
    (hSome : cs ≠ [])
    (hMembers : ∀ c ∈ cs, isMember c)
    (hRest : ∀ c ∈ rest.head?, isMember c = false) :
    (run1 isMember).run (cs ++ rest) = some (cs, rest) := by
  have hStop :
      rest.takeWhile isMember = [] ∧
        rest.dropWhile isMember = rest := by
    cases rest with
    | nil => exact ⟨rfl, rfl⟩
    | cons c rest =>
        have hOther := hRest c rfl
        exact ⟨List.takeWhile_cons_of_neg (by simp [hOther]),
          List.dropWhile_cons_of_neg (by simp [hOther])⟩
  rcases List.exists_cons_of_ne_nil hSome with ⟨c, tail, rfl⟩
  rw [List.forall_mem_cons] at hMembers
  simp [run1, hMembers.1, hStop,
    List.takeWhile_append_of_pos hMembers.2,
    List.dropWhile_append_of_pos hMembers.2]

/- A quote begins no bare key. -/
theorem run1_of_first
    {isMember : Char → Bool}
    (hFirst : isMember c = false)
    (cs : List Char) :
    (run1 isMember).run (c :: cs) = none := by
  simp [run1, hFirst]

/- A key in single quotes is not in double quotes. -/
theorem basicKey_single (cs : List Char) :
    basicKey.run ('\x27' :: cs) = none :=
  run_behind_of_none (run_exact_of_ne (by decide) cs)

/- A key is read back where it ends. -/
theorem key_writtenKey
    (written : String)
    (hEnds : EndsKey rest) :
    key.run ((writtenKey written).toList ++ rest) =
      some (written, rest) := by
  have hSame : String.ofList written.toList = written :=
    String.ofList_toList
  conv => rhs; rw [← hSame]
  apply run_map
  unfold writtenKey
  split
  · next hNone =>
      rcases of_keyQuotingOf_none hNone with ⟨hSome, hBare⟩
      exact run_orElse_of_some (run1_append hSome hBare hEnds)
  · next quoting hSome =>
      rw [String.toList_ofList]
      rcases of_keyQuotingOf_some hSome with
        rfl | ⟨rfl, hPlain⟩
      · rw [quotedAs, List.cons_append, List.append_assoc,
          run_orElse_of_none (run1_of_first (by decide) _)]
        exact run_orElse_of_some
          (run_behind (run_exact _ _)
            (readBasic_flatMap written.toList rest))
      · rw [quotedAs, List.cons_append, List.append_assoc,
          run_orElse_of_none (run1_of_first (by decide) _),
          run_orElse_of_none (basicKey_single _)]
        exact run_behind (run_exact _ _)
          (readLiteral_append hPlain rest)

------------------------------------------------------------
-- Paths
------------------------------------------------------------

/- A key of a path, with the spaces around it. -/
def spacedKey : Reader String :=
  (key.afterGap spaces).beforeGap spaces

/- A key of a path is read back, and spaces behind it. -/
theorem spacedKey_writtenKey
    (written : String)
    (hEnds : EndsKey rest) :
    spacedKey.run ((writtenKey written).toList ++ rest) =
      some (written, spaces.skip rest) := by
  have hRead := key_writtenKey written hEnds
  rcases exists_writtenKey_cons written with
    ⟨c, tail, hText, hStarts⟩
  have hSkip :
      spaces.skip ((writtenKey written).toList ++ rest) =
        (writtenKey written).toList ++ rest := by
    rw [hText, List.cons_append]
    exact spaces_skip_cons hStarts.isSpace_eq _
  simp [spacedKey, afterGap, beforeGap, hSkip, hRead]

/- The keys of a path behind the first one. -/
def keysBehind (path : List String) : List Char :=
  path.flatMap fun key => '.' :: (writtenKey key).toList

/- A path is its first key, and the keys behind it. -/
theorem toList_writtenPath
    (first : String)
    (others : List String) :
    (writtenPath (first :: others)).toList =
      (writtenKey first).toList ++ keysBehind others := by
  induction others generalizing first with
  | nil => simp [writtenPath, keysBehind]
  | cons next others ih =>
      have hRest := ih next
      unfold writtenPath at hRest ⊢
      rw [List.map_cons, List.map_cons,
        String.intercalate_cons_cons, ← List.map_cons,
        String.toList_append, String.toList_append, hRest]
      simp [keysBehind]

/- A key ends in front of the next one. -/
theorem endsKey_keysBehind
    (path : List String)
    (hEnds : EndsKey rest) :
    EndsKey (keysBehind path ++ rest) := by
  cases path with
  | nil => exact hEnds
  | cons key path => exact endsKey_cons (by decide)

/- Keys behind points are read back. -/
theorem separatedFrom_keysBehind
    (path : List String)
    (hEnds : EndsKey rest)
    (hMark : (spaces.skip rest).head? ≠ some '.') :
    separatedFrom '.' spacedKey
        (spaces.skip (keysBehind path ++ rest)) =
      (path, spaces.skip rest) := by
  induction path with
  | nil => exact separatedFrom_of_head_ne hMark
  | cons key path ih =>
      have hRead :=
        spacedKey_writtenKey key (endsKey_keysBehind path hEnds)
      rw [keysBehind, List.flatMap_cons, List.cons_append,
        List.cons_append, spaces_skip_cons (by decide),
        List.append_assoc, ← keysBehind,
        separatedFrom_of_mark hRead, ih]

/- A path is read back, and spaces behind it. -/
theorem keyPath_writtenPath
    {path : List String}
    {after : List Char}
    (hSome : path ≠ [])
    (hLevels : path.length < levelLimit)
    (hEnds : EndsKey rest)
    (hAfter : spaces.skip rest = after)
    (hMark : after.head? ≠ some '.') :
    keyPath.run ((writtenPath path).toList ++ rest) =
      some (path, after) := by
  rcases List.exists_cons_of_ne_nil hSome with
    ⟨first, others, rfl⟩
  rw [← hAfter] at hMark ⊢
  have hFirst :=
    spacedKey_writtenKey first (endsKey_keysBehind others hEnds)
  have hOthers := separatedFrom_keysBehind others hEnds hMark
  rw [toList_writtenPath, List.append_assoc]
  exact run_filterMap (run_separated hFirst hOthers)
    (if_pos hLevels)

end Toml

end PipelineScript
