import PipelineScript.Import.ImportBlock
import PipelineScript.Proofs.Import.Directive
import PipelineScript.Proofs.Outcome
import Mathlib.Data.List.Nodup

/-
  When requests can be kept together, and what is kept.

  Requests go together if every module has a name and is
  requested in one way only. In which order they come, and
  through how many blocks, makes no difference to that.

  Key definitions include:
    * `ImportBlock.listing`
    * `ImportBlock.IsNormal`
    * `ImportBlock.Refuses`
    * `ImportBlock.Agree`
    * `ImportBlock.Fault`

  Key theorems include:
    * `ImportBlock.ext_directives`
    * `ImportBlock.find?_eq_some_iff`
    * `ImportBlock.ask_cases`
    * `ImportBlock.add_eq_ok_iff`
    * `ImportBlock.add_eq_error_iff_ask`
    * `ImportBlock.addAll_append`
    * `ImportBlock.mem_of_addAll`
    * `ImportBlock.exists_addAll_iff`
    * `ImportBlock.exists_merge_iff`
    * `ImportBlock.fault_of_addAll`
-/

namespace PipelineScript

namespace ImportBlock

variable {imports next : ImportBlock}
variable {directive : Directive} {directives : List Directive}

------------------------------------------------------------
-- Blocks as Lists
------------------------------------------------------------

@[simp] theorem directives_empty : empty.directives = [] :=
  rfl

/- The entries of a block are its requests with their paths. -/
theorem entries_eq_map (imports : ImportBlock) :
    imports.entries.entries =
      imports.directives.map fun kept => (kept.path, kept) := by
  rw [directives, Table.values, List.map_map]
  refine ((List.map_congr_left ?_).trans (List.map_id _)).symm
  intro entry hEntry
  exact Prod.ext (imports.keyed entry hEntry).symm rfl

/- Blocks with the same requests in the same order are equal. -/
theorem ext_directives
    {first second : ImportBlock}
    (hSame : first.directives = second.directives) :
    first = second := by
  have hEntries : first.entries = second.entries := by
    apply Table.ext_entries
    rw [entries_eq_map, entries_eq_map, hSame]
  cases first
  cases second
  simp_all

/- No module is requested twice. -/
theorem nodup_paths (imports : ImportBlock) :
    (imports.directives.map Directive.path).Nodup := by
  have hKeys := imports.entries.distinct
  rw [entries_eq_map, Entries.keys, List.map_map] at hKeys
  exact hKeys

/- A block has as many requests as modules. -/
theorem size_eq (imports : ImportBlock) :
    imports.size = imports.directives.length :=
  (List.length_map Prod.snd).symm

/- A block without requests has no modules. -/
theorem isEmpty_eq (imports : ImportBlock) :
    imports.isEmpty = imports.directives.isEmpty := by
  rw [isEmpty, Table.isEmpty, entries_eq_map, List.isEmpty_map]

/- Of the requests kept, only one has a given path. -/
theorem eq_of_path_eq
    {first second : Directive}
    (hFirst : first ∈ imports.directives)
    (hSecond : second ∈ imports.directives)
    (hPath : first.path = second.path) :
    first = second :=
  List.inj_on_of_nodup_map imports.nodup_paths hFirst hSecond
    hPath

/- The request that is kept for a path. -/
theorem find?_eq_some_iff {path : String} :
    imports.find? path = some directive ↔
      directive ∈ imports.directives ∧
        directive.path = path := by
  rw [find?, Table.get?_eq_some_iff, entries_eq_map,
    List.mem_map]
  constructor
  · rintro ⟨kept, hKept, hEntry⟩
    rw [Prod.mk.injEq] at hEntry
    rcases hEntry with ⟨hPath, rfl⟩
    exact ⟨hKept, hPath⟩
  · rintro ⟨hMem, rfl⟩
    exact ⟨directive, hMem, rfl⟩

/- A module that is not requested has no request. -/
theorem find?_eq_none_iff {path : String} :
    imports.find? path = none ↔
      ∀ kept ∈ imports.directives, kept.path ≠ path := by
  simp only [Option.eq_none_iff_forall_ne_some, ne_eq,
    find?_eq_some_iff, not_and]

/- A request for a new module comes behind all others. -/
theorem directives_put
    (hNew :
      ∀ kept ∈ imports.directives,
        kept.path ≠ directive.path) :
    (imports.put directive).directives =
      imports.directives ++ [directive] := by
  have hKey :
      directive.path ∉ Entries.keys imports.entries.entries := by
    rw [entries_eq_map, Entries.keys, List.map_map,
      List.mem_map]
    rintro ⟨kept, hKept, hPath⟩
    exact hNew kept hKept hPath
  change
    (Entries.put directive.path directive
      imports.entries.entries).map Prod.snd = _
  rw [Entries.put_of_not_mem directive hKey, List.map_append]
  rfl

/- The block that lists requests for modules of their own. -/
def listing
    (directives : List Directive)
    (hPaths : (directives.map Directive.path).Nodup) :
    ImportBlock where
  entries :=
    ⟨directives.map fun kept => (kept.path, kept), by
      rw [Entries.keys, List.map_map]
      exact hPaths⟩
  keyed := by simp

@[simp] theorem directives_listing
    (hPaths : (directives.map Directive.path).Nodup) :
    (listing directives hPaths).directives = directives := by
  change (directives.map _).map Prod.snd = directives
  rw [List.map_map]
  exact List.map_id directives

------------------------------------------------------------
-- The Invariant
------------------------------------------------------------

/- Every request is in its normal form and names a module. -/
structure IsNormal (imports : ImportBlock) : Prop where
  normal : ∀ kept ∈ imports.directives, kept.normalized = kept
  path_ne : ∀ kept ∈ imports.directives, kept.path ≠ ""

/- The block without requests is normal. -/
theorem isNormal_empty : IsNormal empty where
  normal := by simp
  path_ne := by simp

------------------------------------------------------------
-- Adding One Request
------------------------------------------------------------

/- Why a request in normal form is refused. -/
inductive Refuses
    (imports : ImportBlock)
    (asked : Directive) : CompileError → Prop where
  | noModule
      (hPath : asked.path = "") :
      Refuses imports asked (.validation .emptyModule)
  | differs {kept : Directive}
      (hPath : asked.path ≠ "")
      (hKept : kept ∈ imports.directives)
      (hSame : kept.path = asked.path)
      (hDiffer : kept ≠ asked) :
      Refuses imports asked (conflict kept asked)

/-
  A request is kept already, comes behind all others, or is
  refused, and then the block stays as it is.
-/
theorem ask_cases
    (imports : ImportBlock)
    (directive : Directive) :
    (∃ next,
      imports.ask directive = (next, .ok ()) ∧
        directive.normalized.path ≠ "" ∧
        ((directive.normalized ∈ imports.directives ∧
            next = imports) ∨
          ((∀ kept ∈ imports.directives,
              kept.path ≠ directive.normalized.path) ∧
            next.directives =
              imports.directives ++
                [directive.normalized]))) ∨
      ∃ error,
        imports.ask directive = (imports, .error error) ∧
          imports.Refuses directive.normalized error := by
  unfold ask askNormal
  by_cases hPath : directive.normalized.path = ""
  · rw [if_pos (String.isEmpty_iff.mpr hPath)]
    exact Or.inr ⟨_, rfl, .noModule hPath⟩
  rw [if_neg (mt String.isEmpty_iff.mp hPath)]
  cases hFound : imports.find? directive.normalized.path with
  | none =>
      have hNew := find?_eq_none_iff.mp hFound
      exact Or.inl
        ⟨_, rfl, hPath, Or.inr ⟨hNew, directives_put hNew⟩⟩
  | some kept =>
      rcases find?_eq_some_iff.mp hFound with ⟨hKept, hSame⟩
      by_cases hEq : kept = directive.normalized
      · simp only [hEq, if_true]
        exact Or.inl
          ⟨_, rfl, hPath, Or.inl ⟨hEq ▸ hKept, rfl⟩⟩
      · simp only [hEq, if_false]
        exact Or.inr ⟨_, rfl, .differs hPath hKept hSame hEq⟩

/- A request is added if it is not refused. -/
theorem add_eq_ok_iff_ask :
    imports.add directive = .ok next ↔
      imports.ask directive = (next, .ok ()) := by
  unfold add
  rcases imports.ask directive with ⟨asked, _ | _⟩
  · simp
  · simp

/- A request that is refused leaves a block as it is. -/
theorem add_eq_error_iff_ask
    {error : CompileError} :
    imports.add directive = .error error ↔
      imports.ask directive = (imports, .error error) := by
  unfold add
  rcases imports.ask_cases directive with
    ⟨other, hAsk, -⟩ | ⟨other, hAsk, -⟩
  · simp [hAsk]
  · simp [hAsk]

/- A request is kept already, or else it is the first. -/
theorem add_eq_ok_iff :
    imports.add directive = .ok next ↔
      directive.normalized.path ≠ "" ∧
        ((directive.normalized ∈ imports.directives ∧
            next = imports) ∨
          ((∀ kept ∈ imports.directives,
              kept.path ≠ directive.normalized.path) ∧
            next.directives =
              imports.directives ++
                [directive.normalized])) := by
  rw [add_eq_ok_iff_ask]
  constructor
  · intro hAsk
    rcases imports.ask_cases directive with
      ⟨other, hOther, hAdded⟩ | ⟨error, hError, -⟩
    · rw [hOther, Prod.mk.injEq] at hAsk
      rw [← hAsk.1]
      exact hAdded
    · rw [hError, Prod.mk.injEq] at hAsk
      cases hAsk.2
  · rintro ⟨hPath, hAdded⟩
    rcases imports.ask_cases directive with
      ⟨other, hOther, -, hOtherAdded⟩ | ⟨error, -, hRefuses⟩
    · have hSame : other = next := by
        rcases hAdded with ⟨hKept, rfl⟩ | ⟨hNew, hNext⟩
        · rcases hOtherAdded with ⟨-, hEq⟩ | ⟨hNew, -⟩
          · exact hEq
          · exact absurd rfl (hNew _ hKept)
        · rcases hOtherAdded with ⟨hKept, -⟩ | ⟨-, hOther⟩
          · exact absurd rfl (hNew _ hKept)
          · exact ext_directives (hOther.trans hNext.symm)
      rw [hOther, hSame]
    · -- What is kept already, or new, is not refused.
      cases hRefuses with
      | noModule hEmpty => exact absurd hEmpty hPath
      | differs _ hKept hSame hDiffer =>
          rcases hAdded with ⟨hMem, -⟩ | ⟨hNew, -⟩
          · exact absurd (eq_of_path_eq hKept hMem hSame) hDiffer
          · exact absurd hSame (hNew _ hKept)

/- Otherwise the error tells why it is refused. -/
theorem refuses_of_add
    {error : CompileError}
    (hAdd : imports.add directive = .error error) :
    imports.Refuses directive.normalized error := by
  rw [add_eq_error_iff_ask] at hAdd
  rcases imports.ask_cases directive with
    ⟨other, hAsk, -⟩ | ⟨other, hAsk, hRefuses⟩
  · rw [hAsk, Prod.mk.injEq] at hAdd
    cases hAdd.2
  · rw [hAsk, Prod.mk.injEq, Except.error.injEq] at hAdd
    rw [← hAdd.2]
    exact hRefuses

/- Adding a request keeps a block normal. -/
theorem isNormal_of_add
    (hNormal : imports.IsNormal)
    (hAdd : imports.add directive = .ok next) :
    next.IsNormal := by
  rcases add_eq_ok_iff.mp hAdd with
    ⟨hPath, ⟨-, rfl⟩ | ⟨-, hNext⟩⟩
  · exact hNormal
  · refine ⟨?_, ?_⟩
    · rw [hNext, List.forall_mem_append,
        List.forall_mem_singleton]
      exact ⟨hNormal.normal,
        Directive.normalized_normalized directive⟩
    · rw [hNext, List.forall_mem_append,
        List.forall_mem_singleton]
      exact ⟨hNormal.path_ne, hPath⟩

/- What is kept after a request was added. -/
theorem mem_of_add
    (hAdd : imports.add directive = .ok next)
    (kept : Directive) :
    kept ∈ next.directives ↔
      kept ∈ imports.directives ∨
        directive.normalized = kept := by
  rcases add_eq_ok_iff.mp hAdd with
    ⟨-, ⟨hMem, rfl⟩ | ⟨-, hNext⟩⟩
  · constructor
    · exact Or.inl
    · rintro (hKept | rfl)
      · exact hKept
      · exact hMem
  · simp [hNext, eq_comm]

------------------------------------------------------------
-- Adding Many Requests
------------------------------------------------------------

/- Requests are taken up one by one, up to one that fails. -/
theorem extend_cons
    (imports : ImportBlock)
    (directive : Directive)
    (directives : List Directive) :
    imports.extend (directive :: directives) =
      match imports.add directive with
      | .ok next => next.extend directives
      | .error error => (imports, .error error) := by
  rw [extend]
  cases hAdd : imports.add directive with
  | ok next => rw [add_eq_ok_iff_ask.mp hAdd]
  | error error => rw [add_eq_error_iff_ask.mp hAdd]

@[simp] theorem addAll_nil (imports : ImportBlock) :
    imports.addAll [] = .ok imports :=
  rfl

/- Requests are added from the first to the last. -/
theorem addAll_cons
    (imports : ImportBlock)
    (directive : Directive)
    (directives : List Directive) :
    imports.addAll (directive :: directives) =
      imports.add directive >>= (·.addAll directives) := by
  cases hAdd : imports.add directive with
  | ok next =>
      simp [addAll, extend_cons, hAdd, bind, Except.bind]
  | error error =>
      simp [addAll, extend_cons, hAdd, bind, Except.bind]

/- One request alone. -/
theorem addAll_singleton
    (imports : ImportBlock)
    (directive : Directive) :
    imports.addAll [directive] = imports.add directive := by
  rw [addAll_cons]
  cases imports.add directive with
  | ok next => rfl
  | error error => rfl

/- Two lists of requests are added one after the other. -/
theorem addAll_append
    (imports : ImportBlock)
    (first second : List Directive) :
    imports.addAll (first ++ second) =
      imports.addAll first >>= (·.addAll second) := by
  induction first generalizing imports with
  | nil => rfl
  | cons directive first ih =>
      rw [List.cons_append, addAll_cons, addAll_cons]
      cases imports.add directive with
      | ok next => exact ih next
      | error error => rfl

/- Requests fail for want of a module, or for another request. -/
theorem addAll_eq_error
    {error : CompileError}
    (hAdd : imports.addAll directives = .error error) :
    error = .validation .emptyModule ∨
      ∃ existing requested,
        error = conflict existing requested := by
  induction directives generalizing imports with
  | nil => simp at hAdd
  | cons directive directives ih =>
      rw [addAll_cons, bind_eq_error] at hAdd
      rcases hAdd with hFirst | ⟨middle, -, hRest⟩
      · cases refuses_of_add hFirst with
        | noModule => exact Or.inl rfl
        | differs => exact Or.inr ⟨_, _, rfl⟩
      · exact ih hRest

/- Adding requests keeps a block normal. -/
theorem isNormal_of_addAll
    (hNormal : imports.IsNormal)
    (hAdd : imports.addAll directives = .ok next) :
    next.IsNormal := by
  induction directives generalizing imports with
  | nil =>
      rw [addAll_nil, Except.ok.injEq] at hAdd
      exact hAdd ▸ hNormal
  | cons directive directives ih =>
      rw [addAll_cons, bind_eq_ok] at hAdd
      rcases hAdd with ⟨middle, hFirst, hRest⟩
      exact ih (isNormal_of_add hNormal hFirst) hRest

/- What is kept after requests were added. -/
theorem mem_of_addAll
    (hAdd : imports.addAll directives = .ok next)
    (kept : Directive) :
    kept ∈ next.directives ↔
      kept ∈ imports.directives ∨
        kept ∈ directives.map Directive.normalized := by
  induction directives generalizing imports with
  | nil =>
      rw [addAll_nil, Except.ok.injEq] at hAdd
      simp [hAdd]
  | cons directive directives ih =>
      rw [addAll_cons, bind_eq_ok] at hAdd
      rcases hAdd with ⟨middle, hFirst, hRest⟩
      rw [ih hRest, mem_of_add hFirst, List.map_cons,
        List.mem_cons, or_assoc, eq_comm]

------------------------------------------------------------
-- Requests That Go Together
------------------------------------------------------------

/- Every module has a name, and is requested in one way. -/
structure Agree (directives : List Directive) : Prop where
  path_ne :
    ∀ directive ∈ directives, directive.normalized.path ≠ ""
  eq_of_path_eq :
    ∀ first ∈ directives, ∀ second ∈ directives,
      first.normalized.path = second.normalized.path →
        first.normalized = second.normalized

/- Requests go together by what they are in normal form. -/
theorem Agree.of_subset
    {first second : List Directive}
    (hAgree : Agree second)
    (hSubset :
      first.map Directive.normalized ⊆
        second.map Directive.normalized) :
    Agree first := by
  have hPartner :
      ∀ directive ∈ first, ∃ other ∈ second,
        other.normalized = directive.normalized :=
    fun directive hMem =>
      List.mem_map.mp (hSubset (List.mem_map_of_mem hMem))
  constructor
  · intro directive hMem
    rcases hPartner directive hMem with ⟨other, hOther, hSame⟩
    exact hSame ▸ hAgree.path_ne other hOther
  · intro directive hMem directive' hMem' hPath
    rcases hPartner directive hMem with ⟨other, hOther, hSame⟩
    rcases hPartner directive' hMem' with
      ⟨other', hOther', hSame'⟩
    rw [← hSame, ← hSame'] at hPath ⊢
    exact hAgree.eq_of_path_eq other hOther other' hOther' hPath

/- Requests go together whatever their order. -/
theorem agree_congr
    {first second : List Directive}
    (hSame :
      ∀ kept,
        kept ∈ first.map Directive.normalized ↔
          kept ∈ second.map Directive.normalized) :
    Agree first ↔ Agree second :=
  ⟨fun hAgree => hAgree.of_subset fun kept => (hSame kept).mpr,
    fun hAgree => hAgree.of_subset fun kept => (hSame kept).mp⟩

/- The requests of a normal block are their normal forms. -/
theorem IsNormal.map_normalized
    (hNormal : imports.IsNormal) :
    imports.directives.map Directive.normalized =
      imports.directives :=
  (List.map_congr_left hNormal.normal).trans (List.map_id _)

/- The requests of a normal block go together. -/
theorem IsNormal.agree
    (hNormal : imports.IsNormal) :
    Agree imports.directives where
  path_ne := by
    intro kept hKept
    rw [hNormal.normal kept hKept]
    exact hNormal.path_ne kept hKept
  eq_of_path_eq := by
    intro first hFirst second hSecond hPath
    rw [hNormal.normal first hFirst,
      hNormal.normal second hSecond] at hPath ⊢
    exact eq_of_path_eq hFirst hSecond hPath

/- Requests are what a block keeps of them. -/
theorem agree_append_congr
    (hNormal : imports.IsNormal)
    (hAdd : imports.addAll directives = .ok next)
    (more : List Directive) :
    Agree (next.directives ++ more) ↔
      Agree (imports.directives ++ directives ++ more) := by
  have hNext := isNormal_of_addAll hNormal hAdd
  apply agree_congr
  intro kept
  rw [List.map_append, List.map_append, List.map_append,
    hNormal.map_normalized, hNext.map_normalized,
    List.mem_append, List.mem_append, List.mem_append,
    mem_of_addAll hAdd]

/- Requests can be added if they go together with a block. -/
theorem exists_addAll_iff
    (hNormal : imports.IsNormal) :
    (∃ next, imports.addAll directives = .ok next) ↔
      Agree (imports.directives ++ directives) := by
  induction directives generalizing imports with
  | nil => simpa using hNormal.agree
  | cons directive directives ih =>
      rw [addAll_cons]
      -- What goes together with the block before the first
      -- request was added does so with the block after it.
      have hStep :
          ∀ middle, imports.add directive = .ok middle →
            (Agree (middle.directives ++ directives) ↔
              Agree (imports.directives ++
                directive :: directives)) := by
        intro middle hFirst
        rw [← addAll_singleton] at hFirst
        simpa using agree_append_congr hNormal hFirst directives
      constructor
      · rintro ⟨next, hAdd⟩
        rcases bind_eq_ok.mp hAdd with ⟨middle, hFirst, hRest⟩
        have hMiddle := isNormal_of_add hNormal hFirst
        exact (hStep middle hFirst).mp
          ((ih hMiddle).mp ⟨next, hRest⟩)
      · intro hAgree
        have hMem :
            directive ∈
              imports.directives ++ directive :: directives := by
          simp
        have hPath := hAgree.path_ne directive hMem
        have hFirst :
            ∃ middle, imports.add directive = .ok middle := by
          by_cases hKept :
              ∃ kept ∈ imports.directives,
                kept.path = directive.normalized.path
          · rcases hKept with ⟨kept, hKept, hSame⟩
            have hEq := hAgree.eq_of_path_eq kept (by simp [hKept])
              directive hMem
              (by rw [hNormal.normal kept hKept]; exact hSame)
            rw [hNormal.normal kept hKept] at hEq
            exact ⟨imports, add_eq_ok_iff.mpr
              ⟨hPath, Or.inl ⟨hEq ▸ hKept, rfl⟩⟩⟩
          · push Not at hKept
            exact ⟨imports.put directive.normalized,
              add_eq_ok_iff.mpr
                ⟨hPath, Or.inr ⟨hKept, directives_put hKept⟩⟩⟩
        rcases hFirst with ⟨middle, hFirst⟩
        rcases (ih (isNormal_of_add hNormal hFirst)).mpr
            ((hStep middle hFirst).mpr hAgree) with
          ⟨next, hRest⟩
        exact ⟨next, bind_eq_ok.mpr ⟨middle, hFirst, hRest⟩⟩

------------------------------------------------------------
-- Merging
------------------------------------------------------------

/- What is kept after the block of some requests was merged. -/
theorem mem_of_merge
    {block : ImportBlock}
    (hBlock : ofDirectives directives = .ok block)
    (hMerge : imports.merge block = .ok next)
    (kept : Directive) :
    kept ∈ next.directives ↔
      kept ∈ imports.directives ∨
        kept ∈ directives.map Directive.normalized := by
  have hBlockNormal :=
    isNormal_of_addAll isNormal_empty hBlock
  rw [mem_of_addAll hMerge, hBlockNormal.map_normalized,
    mem_of_addAll hBlock]
  simp

/- Blocks can be merged if their requests go together. -/
theorem exists_merge_iff
    (hNormal : imports.IsNormal) :
    (∃ block, ofDirectives directives = .ok block ∧
      ∃ next, imports.merge block = .ok next) ↔
        Agree (imports.directives ++ directives) := by
  have hMerge :
      ∀ block, ofDirectives directives = .ok block →
        ((∃ next, imports.merge block = .ok next) ↔
          Agree (imports.directives ++ directives)) := by
    intro block hBlock
    have hBlockNormal :=
      isNormal_of_addAll isNormal_empty hBlock
    rw [merge, exists_addAll_iff hNormal]
    apply agree_congr
    intro kept
    rw [List.map_append, List.map_append,
      hBlockNormal.map_normalized, List.mem_append,
      List.mem_append, mem_of_addAll hBlock]
    simp
  constructor
  · rintro ⟨block, hBlock, hNext⟩
    exact (hMerge block hBlock).mp hNext
  · intro hAgree
    have hOwn : Agree (empty.directives ++ directives) :=
      hAgree.of_subset (by simp)
    rcases (exists_addAll_iff isNormal_empty).mpr hOwn with
      ⟨block, hBlock⟩
    exact ⟨block, hBlock, (hMerge block hBlock).mpr hAgree⟩

------------------------------------------------------------
-- Imports That Cannot Be Taken Up
------------------------------------------------------------

/-
  What is wrong with requests in normal form that do not go
  together: one has no module, or two differ for one module.
-/
inductive Fault (requests : List Directive) :
    CompileError → Prop where
  | noModule {request : Directive}
      (hRequest : request ∈ requests)
      (hPath : request.path = "") :
      Fault requests (.validation .emptyModule)
  | conflict {existing requested : Directive}
      (hExisting : existing ∈ requests)
      (hRequested : requested ∈ requests)
      (hPath : existing.path = requested.path)
      (hDiffer : existing ≠ requested) :
      Fault requests (conflict existing requested)

/- What is wrong with some requests is wrong with more. -/
theorem Fault.mono
    {some more : List Directive}
    {error : CompileError}
    (hFault : Fault some error)
    (hSubset : some ⊆ more) :
    Fault more error := by
  cases hFault with
  | noModule hRequest hPath =>
      exact .noModule (hSubset hRequest) hPath
  | conflict hExisting hRequested hPath hDiffer =>
      exact .conflict (hSubset hExisting) (hSubset hRequested)
        hPath hDiffer

/- A request that cannot be added is at fault with the block. -/
theorem fault_of_add
    {error : CompileError}
    (hAdd : imports.add directive = .error error) :
    Fault (imports.directives ++ [directive.normalized])
      error := by
  have hLast :
      directive.normalized ∈
        imports.directives ++ [directive.normalized] := by
    simp
  cases refuses_of_add hAdd with
  | noModule hPath => exact .noModule hLast hPath
  | differs _ hKept hSame hDiffer =>
      exact .conflict (List.mem_append_left _ hKept) hLast
        hSame hDiffer

/- Requests that cannot be added are at fault with the block. -/
theorem fault_of_addAll
    {error : CompileError}
    (hAdd : imports.addAll directives = .error error) :
    Fault
      (imports.directives
        ++ directives.map Directive.normalized)
      error := by
  induction directives generalizing imports with
  | nil => simp at hAdd
  | cons directive rest ih =>
      rw [addAll_cons, bind_eq_error] at hAdd
      rcases hAdd with hFirst | ⟨middle, hFirst, hRest⟩
      · apply (fault_of_add hFirst).mono
        intro kept hKept
        rw [List.mem_append, List.mem_singleton] at hKept
        rcases hKept with hKept | rfl
        · exact List.mem_append_left _ hKept
        · simp
      · apply (ih hRest).mono
        intro kept hKept
        rw [List.mem_append, mem_of_add hFirst] at hKept
        rw [List.map_cons, List.mem_append, List.mem_cons]
        rcases hKept with (hKept | rfl) | hKept
        · exact Or.inl hKept
        · exact Or.inr (Or.inl rfl)
        · exact Or.inr (Or.inr hKept)

end ImportBlock

end PipelineScript
