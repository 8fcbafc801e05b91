import PipelineScript.Proofs.Import.Merging
import Mathlib.Data.Finset.Card

/-
  Blocks that are merged, and requests that are added one by
  one.

  It makes no difference whether requests are first put into a
  block of their own and then merged, or added as they come.
  Either way the first request for every module is kept, in
  the order of the requests.

  Key definitions include:
    * `ImportBlock.firsts`

  Key theorems include:
    * `ImportBlock.addAll_eq_foldlM`
    * `ImportBlock.addAll_eq_ok_iff`
    * `ImportBlock.ofDirectives_eq_ok_iff`
    * `ImportBlock.exists_merge_eq_ok_iff`
    * `ImportBlock.length_firsts`
-/

namespace PipelineScript

namespace ImportBlock

variable {imports next : ImportBlock}

------------------------------------------------------------
-- The First of Every Module
------------------------------------------------------------

/-
  Requests in their normal forms, without those for a module
  that was requested before.
-/
def firsts : List Directive → List Directive
  | [] => []
  | directive :: rest =>
      directive.normalized ::
        (firsts rest).filter
          (·.path != directive.normalized.path)

/- Every module that is requested is kept once, and no other. -/
theorem firsts_spec (directives : List Directive) :
    ((firsts directives).map Directive.path).Nodup ∧
      ∀ path,
        path ∈ (firsts directives).map Directive.path ↔
          path ∈
            directives.map fun directive =>
              directive.normalized.path := by
  induction directives with
  | nil => simp [firsts]
  | cons directive rest ih =>
      have hFilter :
          ((firsts rest).filter
              (·.path != directive.normalized.path)).map
              Directive.path =
            ((firsts rest).map Directive.path).filter
              (· != directive.normalized.path) := by
        rw [List.filter_map]
        rfl
      rw [firsts, List.map_cons, hFilter]
      constructor
      · rw [List.nodup_cons]
        refine ⟨?_, ih.1.filter _⟩
        simp
      · intro path
        simp only [List.mem_cons, List.mem_filter, ih.2,
          List.map_cons, bne_iff_ne]
        by_cases hPath : path = directive.normalized.path
        · simp [hPath]
        · simp [hPath]

/- As many requests are kept as there are modules. -/
theorem length_firsts (directives : List Directive) :
    (firsts directives).length =
      (directives.map fun directive =>
        directive.normalized.path).toFinset.card := by
  have hPaths :
      (directives.map fun directive =>
          directive.normalized.path).toFinset =
        ((firsts directives).map Directive.path).toFinset := by
    ext path
    rw [List.mem_toFinset, List.mem_toFinset,
      (firsts_spec directives).2]
  rw [hPaths,
    List.toFinset_card_of_nodup (firsts_spec directives).1,
    List.length_map]

/- Requests without a module of the block are new to it alike. -/
theorem newAmong_filter_of_mem
    {path : String}
    (hKept : ∃ kept ∈ imports.directives, kept.path = path)
    (asked : List Directive) :
    imports.newAmong (asked.filter (·.path != path)) =
      imports.newAmong asked := by
  rcases hKept with ⟨kept, hKept, rfl⟩
  unfold newAmong
  rw [List.filter_filter]
  apply List.filter_congr
  intro directive _
  rw [Bool.eq_iff_iff, Bool.and_eq_true, isNone_find?_iff,
    bne_iff_ne, and_iff_left_iff_imp]
  intro hNew
  exact (hNew kept hKept).symm

------------------------------------------------------------
-- Adding Requests as They Come
------------------------------------------------------------

/- Adding requests is adding one of them after the other. -/
theorem addAll_eq_foldlM
    (imports : ImportBlock)
    (directives : List Directive) :
    imports.addAll directives =
      directives.foldlM add imports := by
  induction directives generalizing imports with
  | nil => rfl
  | cons directive rest ih =>
      rw [addAll_cons, List.foldlM_cons]
      exact bind_congr ih

/- The first of every module that is new is kept. -/
theorem directives_of_addAll
    {directives : List Directive}
    (hAdd : imports.addAll directives = .ok next) :
    next.directives =
      imports.directives
        ++ imports.newAmong (firsts directives) := by
  induction directives generalizing imports with
  | nil =>
      rw [addAll_nil, Except.ok.injEq] at hAdd
      rw [← hAdd, firsts, newAmong, List.filter_nil,
        List.append_nil]
  | cons directive rest ih =>
      rw [addAll_cons, bind_eq_ok] at hAdd
      rcases hAdd with ⟨middle, hFirst, hRest⟩
      rw [ih hRest, firsts]
      rcases add_eq_ok_iff.mp hFirst with
        ⟨-, ⟨hKept, rfl⟩ | ⟨hNew, hMiddle⟩⟩
      · rw [newAmong_cons_of_mem hKept,
          newAmong_filter_of_mem ⟨_, hKept, rfl⟩]
      · rw [newAmong_eq_filter hMiddle,
          newAmong_cons_of_new hNew, hMiddle,
          List.append_assoc]
        rfl

/-
  Requests can be added if they go together, and then the
  first of every module that is new is kept.
-/
theorem addAll_eq_ok_iff
    (hNormal : imports.IsNormal)
    {directives : List Directive} :
    imports.addAll directives = .ok next ↔
      Agree (imports.directives ++ directives) ∧
        next.directives =
          imports.directives
            ++ imports.newAmong (firsts directives) := by
  constructor
  · intro hAdd
    exact ⟨(exists_addAll_iff hNormal).mp ⟨next, hAdd⟩,
      directives_of_addAll hAdd⟩
  · rintro ⟨hAgree, hNext⟩
    rcases (exists_addAll_iff hNormal).mpr hAgree with
      ⟨made, hMade⟩
    rw [← directives_of_addAll hMade] at hNext
    rw [hMade, ext_directives hNext]

/- To the block without requests, the first of all are new. -/
theorem ofDirectives_eq_ok_iff
    {directives : List Directive} :
    ofDirectives directives = .ok next ↔
      Agree directives ∧
        next.directives = firsts directives := by
  have hNew :
      empty.newAmong (firsts directives) =
        firsts directives :=
    List.filter_eq_self.mpr fun _ _ => rfl
  rw [ofDirectives, addAll_eq_ok_iff isNormal_empty, hNew]
  rfl

/-
  A block that is made of requests and then merged adds what
  the requests add one by one.
-/
theorem exists_merge_eq_ok_iff
    (hNormal : imports.IsNormal)
    {directives : List Directive} :
    (∃ own,
      ofDirectives directives = .ok own ∧
        imports.merge own = .ok next) ↔
      imports.addAll directives = .ok next := by
  have hOwn {own : ImportBlock}
      (hOwn : ofDirectives directives = .ok own) :
      own.IsNormal ∧ own.directives = firsts directives :=
    ⟨isNormal_of_addAll isNormal_empty hOwn,
      (ofDirectives_eq_ok_iff.mp hOwn).2⟩
  rw [addAll_eq_ok_iff hNormal]
  constructor
  · rintro ⟨own, hMade, hMerge⟩
    refine ⟨(exists_merge_iff hNormal).mp
      ⟨own, hMade, next, hMerge⟩, ?_⟩
    rw [← (hOwn hMade).2]
    exact directives_of_merge (hOwn hMade).1 hMerge
  · rintro ⟨hAgree, hNext⟩
    rcases (exists_merge_iff hNormal).mpr hAgree with
      ⟨own, hMade, merged, hMerge⟩
    refine ⟨own, hMade, ?_⟩
    rw [← (hOwn hMade).2] at hNext
    rw [hMerge, ext_directives
      ((directives_of_merge (hOwn hMade).1 hMerge).trans
        hNext.symm)]

/- In which order requests come makes no difference to that. -/
theorem exists_ofDirectives_congr
    {first second : List Directive}
    (hPerm : first.Perm second) :
    (∃ made, ofDirectives first = .ok made) ↔
      ∃ made, ofDirectives second = .ok made := by
  rw [ofDirectives, ofDirectives,
    exists_addAll_iff isNormal_empty,
    exists_addAll_iff isNormal_empty]
  exact agree_congr fun kept => (hPerm.map _).mem_iff

end ImportBlock

end PipelineScript
