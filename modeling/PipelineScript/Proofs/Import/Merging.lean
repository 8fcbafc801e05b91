import PipelineScript.Proofs.Import.ImportBlock
import Mathlib.Data.List.Perm.Basic

/-
  Merging as a union that keeps the order of both blocks.

  What two blocks both request must be the same request. Then
  the requests of the second that are new come behind those of
  the first, and it makes no difference to what is kept which
  of them is the first, or how more than two are put together.

  Key definitions include:
    * `ImportBlock.IsReached`
    * `ImportBlock.AgreesWith`
    * `ImportBlock.newAmong`
    * `ImportBlock.newTo`

  Key theorems include:
    * `ImportBlock.IsReached.isNormal`
    * `ImportBlock.merge_eq_ok_iff`
    * `ImportBlock.merge_eq_error`
    * `ImportBlock.merge_is_union`
-/

namespace PipelineScript

namespace ImportBlock

variable {imports other next : ImportBlock}

------------------------------------------------------------
-- Blocks That Can Be Made
------------------------------------------------------------

/-
  The blocks that adding and merging lead to. Of requests that
  cannot all be added, those in front of the first that fails
  are kept.
-/
inductive IsReached : ImportBlock → Prop where
  | empty : IsReached empty
  | add {imports next : ImportBlock} {directive : Directive}
      (hImports : IsReached imports)
      (hAdd : imports.add directive = .ok next) :
      IsReached next
  | extend {imports : ImportBlock}
      (hImports : IsReached imports)
      (directives : List Directive) :
      IsReached (imports.extend directives).1
  | merge {imports other next : ImportBlock}
      (hImports : IsReached imports)
      (hOther : IsReached other)
      (hMerge : imports.merge other = .ok next) :
      IsReached next

/- Adding requests up to one that fails keeps a block normal. -/
theorem isNormal_extend
    (hNormal : imports.IsNormal)
    (directives : List Directive) :
    (imports.extend directives).1.IsNormal := by
  induction directives generalizing imports with
  | nil => exact hNormal
  | cons directive directives ih =>
      rw [extend_cons]
      cases hAdd : imports.add directive with
      | ok next => exact ih (isNormal_of_add hNormal hAdd)
      | error error => exact hNormal

/- Every block that can be made is normal. -/
theorem IsReached.isNormal
    (hReached : imports.IsReached) :
    imports.IsNormal := by
  induction hReached with
  | empty => exact isNormal_empty
  | add _ hAdd ih => exact isNormal_of_add ih hAdd
  | extend _ directives ih => exact isNormal_extend ih directives
  | merge _ _ hMerge ih _ => exact isNormal_of_addAll ih hMerge

------------------------------------------------------------
-- Blocks That Agree
------------------------------------------------------------

/- Modules that both blocks request are requested in one way. -/
def AgreesWith (imports other : ImportBlock) : Prop :=
  ∀ kept ∈ imports.directives, ∀ asked ∈ other.directives,
    kept.path = asked.path → kept = asked

/- The requests for modules that the block does not request. -/
def newAmong
    (imports : ImportBlock)
    (asked : List Directive) : List Directive :=
  asked.filter fun asked => (imports.find? asked.path).isNone

/- The requests of the other block for further modules. -/
def newTo (imports other : ImportBlock) : List Directive :=
  imports.newAmong other.directives

/- Agreement does not depend on which block is the first. -/
theorem AgreesWith.symm
    (hAgrees : imports.AgreesWith other) :
    other.AgreesWith imports :=
  fun asked hAsked kept hKept hPath =>
    (hAgrees kept hKept asked hAsked hPath.symm).symm

/- Agreement in one order is agreement in the other. -/
theorem agreesWith_comm :
    imports.AgreesWith other ↔ other.AgreesWith imports :=
  ⟨AgreesWith.symm, AgreesWith.symm⟩

/- A module is new if no request is kept for it. -/
theorem isNone_find?_iff {path : String} :
    (imports.find? path).isNone ↔
      ∀ kept ∈ imports.directives, kept.path ≠ path := by
  rw [Option.isNone_iff_eq_none, find?_eq_none_iff]

/- A request that is kept is not new. -/
theorem newAmong_cons_of_mem
    {asked : Directive}
    (hKept : asked ∈ imports.directives)
    (rest : List Directive) :
    imports.newAmong (asked :: rest) =
      imports.newAmong rest := by
  apply List.filter_cons_of_neg
  rw [isNone_find?_iff]
  intro hNew
  exact hNew asked hKept rfl

/- A request with a path of its own is new. -/
theorem newAmong_cons_of_new
    {asked : Directive}
    (hNew : ∀ kept ∈ imports.directives, kept.path ≠ asked.path)
    (rest : List Directive) :
    imports.newAmong (asked :: rest) =
      asked :: imports.newAmong rest :=
  List.filter_cons_of_pos (isNone_find?_iff.mpr hNew)

/- Behind one more request, what is new has another module. -/
theorem newAmong_eq_filter
    {directive : Directive}
    (hNext :
      next.directives = imports.directives ++ [directive])
    (asked : List Directive) :
    next.newAmong asked =
      imports.newAmong
        (asked.filter (·.path != directive.path)) := by
  unfold newAmong
  rw [List.filter_filter]
  apply List.filter_congr
  intro other _
  rw [Bool.eq_iff_iff, Bool.and_eq_true, isNone_find?_iff,
    isNone_find?_iff, bne_iff_ne, hNext,
    List.forall_mem_append, List.forall_mem_singleton]
  exact and_congr_right fun _ => ne_comm

------------------------------------------------------------
-- What Merging Makes
------------------------------------------------------------

/- Normal blocks agree if all their requests go together. -/
theorem agree_append_iff
    (hNormal : imports.IsNormal)
    (hOther : other.IsNormal) :
    Agree (imports.directives ++ other.directives) ↔
      imports.AgreesWith other := by
  constructor
  · intro hAgree kept hKept asked hAsked hPath
    have hEq :=
      hAgree.eq_of_path_eq kept (List.mem_append_left _ hKept)
        asked (List.mem_append_right _ hAsked)
    rw [hNormal.normal kept hKept,
      hOther.normal asked hAsked] at hEq
    exact hEq hPath
  · intro hAgrees
    constructor
    · rw [List.forall_mem_append]
      exact ⟨hNormal.agree.path_ne, hOther.agree.path_ne⟩
    · intro first hFirst second hSecond hPath
      rw [List.mem_append] at hFirst hSecond
      rcases hFirst with hFirst | hFirst
      · rcases hSecond with hSecond | hSecond
        · exact hNormal.agree.eq_of_path_eq first hFirst second
            hSecond hPath
        · rw [hNormal.normal first hFirst,
            hOther.normal second hSecond] at hPath ⊢
          exact hAgrees first hFirst second hSecond hPath
      · rcases hSecond with hSecond | hSecond
        · rw [hOther.normal first hFirst,
            hNormal.normal second hSecond] at hPath ⊢
          exact hAgrees.symm first hFirst second hSecond hPath
        · exact hOther.agree.eq_of_path_eq first hFirst second
            hSecond hPath

/- What is new comes behind what was there, in its order. -/
theorem directives_of_merge
    (hOther : other.IsNormal)
    (hMerge : imports.merge other = .ok next) :
    next.directives =
      imports.directives ++ imports.newTo other := by
  have hPaths := other.nodup_paths
  have hNormals := hOther.normal
  rw [newTo]
  rw [merge] at hMerge
  generalize other.directives = directives at *
  induction directives generalizing imports with
  | nil =>
      rw [addAll_nil, Except.ok.injEq] at hMerge
      rw [← hMerge, newAmong, List.filter_nil, List.append_nil]
  | cons asked rest ih =>
      rw [addAll_cons, bind_eq_ok] at hMerge
      rcases hMerge with ⟨middle, hAdd, hRest⟩
      rw [List.forall_mem_cons] at hNormals
      rw [List.map_cons, List.nodup_cons] at hPaths
      have hNext := ih hRest hPaths.2 hNormals.2
      rw [add_eq_ok_iff, hNormals.1] at hAdd
      rcases hAdd with ⟨-, ⟨hKept, rfl⟩ | ⟨hNew, hMiddle⟩⟩
      · rw [hNext, newAmong_cons_of_mem hKept]
      · -- What follows has other paths, and so it is new to the
        -- block with the request if it is to the one without.
        have hOthers :
            rest.filter (·.path != asked.path) = rest := by
          rw [List.filter_eq_self]
          intro later hLater
          rw [bne_iff_ne]
          intro hPath
          exact hPaths.1 (hPath ▸ List.mem_map_of_mem hLater)
        rw [hNext, newAmong_eq_filter hMiddle, hOthers, hMiddle,
          newAmong_cons_of_new hNew, List.append_assoc,
          List.singleton_append]

/-
  Blocks can be merged if they agree, and the second adds what
  is new to the first.
-/
theorem merge_eq_ok_iff
    (hNormal : imports.IsNormal)
    (hOther : other.IsNormal) :
    imports.merge other = .ok next ↔
      imports.AgreesWith other ∧
        next.directives =
          imports.directives ++ imports.newTo other := by
  rw [← agree_append_iff hNormal hOther,
    ← exists_addAll_iff hNormal]
  constructor
  · intro hMerge
    exact ⟨⟨next, hMerge⟩, directives_of_merge hOther hMerge⟩
  · rintro ⟨⟨merged, hMerge⟩, hNext⟩
    rw [← directives_of_merge hOther hMerge] at hNext
    rw [merge, hMerge, ext_directives hNext]

/- A merged block has the requests of both. -/
theorem mem_of_merge_iff
    (hOther : other.IsNormal)
    (hMerge : imports.merge other = .ok next)
    (kept : Directive) :
    kept ∈ next.directives ↔
      kept ∈ imports.directives ∨ kept ∈ other.directives := by
  rw [mem_of_addAll hMerge, hOther.map_normalized]

/- A request with a name that cannot be added is a conflict. -/
theorem add_eq_error
    {asked : Directive}
    (hAsked : asked.normalized = asked)
    (hPath : asked.path ≠ "")
    {error : CompileError}
    (hAdd : imports.add asked = .error error) :
    ∃ kept ∈ imports.directives,
      kept.path = asked.path ∧ kept ≠ asked ∧
        error = conflict kept asked := by
  have hRefuses := refuses_of_add hAdd
  rw [hAsked] at hRefuses
  cases hRefuses with
  | noModule hEmpty => exact absurd hEmpty hPath
  | differs _ hKept hSame hDiffer =>
      exact ⟨_, hKept, hSame, hDiffer, rfl⟩

/- Where merging fails, both request a module differently. -/
theorem merge_eq_error
    (hOther : other.IsNormal)
    {error : CompileError}
    (hMerge : imports.merge other = .error error) :
    ∃ kept ∈ imports.directives, ∃ asked ∈ other.directives,
      kept.path = asked.path ∧ kept ≠ asked ∧
        error = conflict kept asked := by
  have hPaths := other.nodup_paths
  rcases hOther with ⟨hNormals, hNamed⟩
  rw [merge] at hMerge
  generalize other.directives = directives at *
  induction directives generalizing imports with
  | nil => simp at hMerge
  | cons first rest ih =>
      rw [addAll_cons, bind_eq_error] at hMerge
      rw [List.forall_mem_cons] at hNormals hNamed
      rw [List.map_cons, List.nodup_cons] at hPaths
      rcases hMerge with hAdd | ⟨middle, hAdd, hRest⟩
      · rcases add_eq_error hNormals.1 hNamed.1 hAdd with
          ⟨kept, hKept, hConflict⟩
        exact ⟨kept, hKept, first, List.mem_cons_self,
          hConflict⟩
      · rcases ih hRest hPaths.2 hNormals.2 hNamed.2 with
          ⟨kept, hKept, asked, hAsked, hPath, hConflict⟩
        rw [mem_of_add hAdd, hNormals.1] at hKept
        refine ⟨kept, ?_, asked, List.mem_cons_of_mem _ hAsked,
          hPath, hConflict⟩
        -- The request added before has another path.
        rcases hKept with hKept | rfl
        · exact hKept
        · exact absurd (hPath ▸ List.mem_map_of_mem hAsked)
            hPaths.1

------------------------------------------------------------
-- Laws of Merging
------------------------------------------------------------

variable {first second third both : ImportBlock}

/- Two blocks make the same block in either order, but for it. -/
theorem perm_of_merge
    (hFirst : first.IsNormal)
    (hSecond : second.IsNormal)
    (hMerge : first.merge second = .ok both)
    (hOther : second.merge first = .ok other) :
    both.directives.Perm other.directives := by
  rw [List.perm_ext_iff_of_nodup
    (List.Nodup.of_map _ both.nodup_paths)
    (List.Nodup.of_map _ other.nodup_paths)]
  intro kept
  rw [mem_of_merge_iff hSecond hMerge,
    mem_of_merge_iff hFirst hOther, or_comm]

/- A block adds nothing to itself. -/
theorem merge_self (hNormal : imports.IsNormal) :
    imports.merge imports = .ok imports := by
  rw [merge_eq_ok_iff hNormal hNormal]
  constructor
  · intro kept hKept asked hAsked hPath
    exact eq_of_path_eq hKept hAsked hPath
  · have hNone : imports.newTo imports = [] := by
      rw [newTo, newAmong, List.filter_eq_nil_iff]
      intro asked hAsked hNew
      exact isNone_find?_iff.mp hNew asked hAsked rfl
    rw [hNone, List.append_nil]

/- The block without requests adds nothing. -/
theorem merge_empty (imports : ImportBlock) :
    imports.merge empty = .ok imports :=
  rfl

/- To the block without requests everything is new. -/
theorem empty_merge (hNormal : imports.IsNormal) :
    empty.merge imports = .ok imports := by
  rw [merge_eq_ok_iff isNormal_empty hNormal]
  constructor
  · simp [AgreesWith]
  · have hNone (path : String) : empty.find? path = none :=
      rfl
    simp [newTo, newAmong, hNone]

/- What agrees with a merged block agrees with both parts. -/
theorem agreesWith_of_merge_iff
    (hSecond : second.IsNormal)
    (hMerge : first.merge second = .ok both) :
    both.AgreesWith third ↔
      first.AgreesWith third ∧ second.AgreesWith third := by
  unfold AgreesWith
  simp only [mem_of_merge_iff hSecond hMerge, or_imp,
    forall_and]

/- What is new to a merged block is new to both parts. -/
theorem newTo_of_merge
    (hSecond : second.IsNormal)
    (hMerge : first.merge second = .ok both)
    (third : ImportBlock) :
    both.newTo third =
      first.newAmong (second.newTo third) := by
  unfold newTo newAmong
  rw [List.filter_filter]
  apply List.filter_congr
  intro asked _
  rw [Bool.eq_iff_iff, Bool.and_eq_true, isNone_find?_iff,
    isNone_find?_iff, isNone_find?_iff]
  simp only [mem_of_merge_iff hSecond hMerge, or_imp,
    forall_and]

/- A block with the given requests can be made of merging. -/
theorem exists_merge_of_agreesWith
    (hFirst : first.IsNormal)
    (hSecond : second.IsNormal)
    (hAgrees : first.AgreesWith second) :
    ∃ both, first.merge second = .ok both := by
  rw [← agree_append_iff hFirst hSecond] at hAgrees
  exact (exists_addAll_iff hFirst).mpr hAgrees

/- Three blocks that are merged from the first to the last. -/
theorem merge_left_eq_ok_iff
    (hFirst : first.IsNormal)
    (hSecond : second.IsNormal)
    (hThird : third.IsNormal) :
    (first.merge second >>= (·.merge third)) = .ok next ↔
      (first.AgreesWith second ∧ first.AgreesWith third ∧
          second.AgreesWith third) ∧
        next.directives =
          first.directives ++ first.newTo second
            ++ first.newAmong (second.newTo third) := by
  rw [bind_eq_ok]
  constructor
  · rintro ⟨both, hBoth, hNext⟩
    have hNormal := isNormal_of_addAll hFirst hBoth
    rw [merge_eq_ok_iff hNormal hThird,
      agreesWith_of_merge_iff hSecond hBoth,
      newTo_of_merge hSecond hBoth] at hNext
    rw [merge_eq_ok_iff hFirst hSecond] at hBoth
    exact ⟨⟨hBoth.1, hNext.1⟩, by rw [hNext.2, hBoth.2]⟩
  · rintro ⟨⟨hBoth, hAgrees⟩, hNext⟩
    rcases exists_merge_of_agreesWith hFirst hSecond hBoth with
      ⟨both, hMerge⟩
    refine ⟨both, hMerge, ?_⟩
    rw [merge_eq_ok_iff (isNormal_of_addAll hFirst hMerge)
        hThird,
      agreesWith_of_merge_iff hSecond hMerge,
      newTo_of_merge hSecond hMerge,
      directives_of_merge hSecond hMerge]
    exact ⟨hAgrees, hNext⟩

/- Three blocks that are merged from the last to the first. -/
theorem merge_right_eq_ok_iff
    (hFirst : first.IsNormal)
    (hSecond : second.IsNormal)
    (hThird : third.IsNormal) :
    (second.merge third >>= first.merge) = .ok next ↔
      (first.AgreesWith second ∧ first.AgreesWith third ∧
          second.AgreesWith third) ∧
        next.directives =
          first.directives ++ first.newTo second
            ++ first.newAmong (second.newTo third) := by
  have hAgrees {both : ImportBlock}
      (hMerge : second.merge third = .ok both) :
      first.AgreesWith both ↔
        first.AgreesWith second ∧ first.AgreesWith third := by
    rw [agreesWith_comm,
      agreesWith_of_merge_iff hThird hMerge]
    exact and_congr agreesWith_comm agreesWith_comm
  -- What is new to the first block is so part by part.
  have hNew {both : ImportBlock}
      (hMerge : second.merge third = .ok both) :
      first.newTo both =
        first.newTo second
          ++ first.newAmong (second.newTo third) := by
    rw [newTo, directives_of_merge hThird hMerge, newAmong,
      List.filter_append]
    rfl
  rw [bind_eq_ok]
  constructor
  · rintro ⟨both, hBoth, hNext⟩
    have hNormal := isNormal_of_addAll hSecond hBoth
    rw [merge_eq_ok_iff hFirst hNormal, hAgrees hBoth,
      hNew hBoth, ← List.append_assoc] at hNext
    rw [merge_eq_ok_iff hSecond hThird] at hBoth
    exact ⟨⟨hNext.1.1, hNext.1.2, hBoth.1⟩, hNext.2⟩
  · rintro ⟨⟨hSome, hOther, hLast⟩, hNext⟩
    rcases exists_merge_of_agreesWith hSecond hThird hLast with
      ⟨both, hMerge⟩
    refine ⟨both, hMerge, ?_⟩
    rw [merge_eq_ok_iff hFirst
        (isNormal_of_addAll hSecond hMerge),
      hAgrees hMerge, hNew hMerge, ← List.append_assoc]
    exact ⟨⟨hSome, hOther⟩, hNext⟩

/-
  Merging blocks is a union that keeps order. It succeeds if
  what both request is the same, and then the requests of the
  second for other modules come behind those of the first. The
  order of two blocks matters for the order of requests alone,
  and that of more than two mergers not even for it. A block
  that is merged with itself, or with the empty one, is left
  as it is. Where merging fails, the cause is a conflict
  between a request of the one and a request of the other.
-/
theorem merge_is_union
    (first second third : ImportBlock)
    (hFirst : first.IsReached)
    (hSecond : second.IsReached)
    (hThird : third.IsReached) :
    (∀ merged,
      first.merge second = .ok merged ↔
        first.AgreesWith second ∧
          merged.directives =
            first.directives ++ first.newTo second) ∧
      ((∃ merged, first.merge second = .ok merged) ↔
        ∃ merged, second.merge first = .ok merged) ∧
      (∀ merged other,
        first.merge second = .ok merged →
          second.merge first = .ok other →
            merged.directives.Perm other.directives) ∧
      (first.merge first = .ok first ∧
        first.merge empty = .ok first ∧
        empty.merge first = .ok first) ∧
      (∀ merged,
        (first.merge second >>= (·.merge third)) = .ok merged ↔
          (second.merge third >>= first.merge) = .ok merged) ∧
      ∀ error,
        first.merge second = .error error →
          ∃ kept ∈ first.directives,
            ∃ asked ∈ second.directives,
              kept.path = asked.path ∧ kept ≠ asked ∧
                error = conflict kept asked := by
  have hFirst := hFirst.isNormal
  have hSecond := hSecond.isNormal
  have hThird := hThird.isNormal
  refine ⟨?_, ?_, ?_, ?_, ?_, ?_⟩
  · intro merged
    exact merge_eq_ok_iff hFirst hSecond
  · rw [merge, merge, exists_addAll_iff hFirst,
      exists_addAll_iff hSecond, agree_append_iff hFirst hSecond,
      agree_append_iff hSecond hFirst]
    exact agreesWith_comm
  · intro merged other hMerge hOther
    exact perm_of_merge hFirst hSecond hMerge hOther
  · exact ⟨merge_self hFirst, merge_empty first,
      empty_merge hFirst⟩
  · intro merged
    rw [merge_left_eq_ok_iff hFirst hSecond hThird,
      merge_right_eq_ok_iff hFirst hSecond hThird]
  · intro error hMerge
    exact merge_eq_error hSecond hMerge

/- Two blocks that share a request, and one that differs. -/
theorem merge_of_shared_requests :
    let first : ImportBlock :=
      listing [.whole "torch", .aliased "numpy" "np"]
        (by decide)
    let second : ImportBlock :=
      listing
        [.memberOf "os.path" "join", .aliased "numpy" "np"]
        (by decide)
    let third : ImportBlock :=
      listing [.whole "numpy"] (by decide)
    let merged : ImportBlock :=
      listing
        [.whole "torch", .aliased "numpy" "np",
          .memberOf "os.path" "join"]
        (by decide)
    (first.IsReached ∧ second.IsReached ∧ third.IsReached) ∧
      first.merge second = .ok merged ∧
      (∃ other,
        second.merge first = .ok other ∧
          merged.directives.Perm other.directives) ∧
      ∃ error,
        first.merge third = .error error ∧
          ∃ kept ∈ first.directives,
            ∃ asked ∈ third.directives,
              kept.path = asked.path ∧ kept ≠ asked ∧
                error = conflict kept asked := by
  intro first second third merged
  have hFirst : first.IsReached :=
    .extend .empty first.directives
  have hSecond : second.IsReached :=
    .extend .empty second.directives
  have hThird : third.IsReached :=
    .extend .empty third.directives
  have hPair := merge_is_union first second third hFirst hSecond
    hThird
  have hClash := merge_is_union first third second hFirst hThird
    hSecond
  have hMerge : first.merge second = .ok merged := by
    rw [hPair.1]
    refine ⟨?_, rfl⟩
    simp [AgreesWith, first, second, Directive.whole,
      Directive.aliased, Directive.memberOf]
  rcases hPair.2.1.mp ⟨merged, hMerge⟩ with ⟨other, hOther⟩
  refine ⟨⟨hFirst, hSecond, hThird⟩, hMerge,
    ⟨other, hOther, hPair.2.2.1 merged other hMerge hOther⟩, ?_⟩
  have hError :
      first.merge third =
        .error
          (conflict (.aliased "numpy" "np") (.whole "numpy")) :=
    rfl
  exact ⟨_, hError, hClash.2.2.2.2.2 _ hError⟩

end ImportBlock

end PipelineScript
