import PipelineScript.Proofs.Import.Merging

/-
  What import blocks keep, whatever is done with them.

  Blocks are made from requests, get more requests, and are
  merged, and any of these steps may fail. Every block that
  comes of it is in order: one request for every module, each
  in its normal form and found under its own path. A request
  that is kept stays what and where it is for good.

  Key definitions include:
    * `Directive.IsInForm`
    * `ImportBlock.Step`
    * `ImportBlock.Step.apply`
    * `ImportBlock.Changes`
    * `ImportBlock.run`

  Key theorems include:
    * `ImportBlock.get?_eq_some_iff`
    * `ImportBlock.prefix_extend`
    * `ImportBlock.exists_of_extend_error`
    * `ImportBlock.Changes.isNormal`
    * `ImportBlock.Changes.exists_prefix`
    * `ImportBlock.run_keeps_requests`
-/

namespace PipelineScript

namespace Directive

/-
  A request names a module by a path that needs no change, and
  what names it has can be seen.
-/
structure IsInForm (directive : Directive) : Prop where
  path_ne : directive.path ≠ ""
  path_eq : normalizedPath directive.path = directive.path
  otherName :
    ∀ name ∈ directive.otherName, Text.isBlankText name = false
  member :
    ∀ name ∈ directive.member, Text.isBlankText name = false

/- A name that is left as it is can be seen. -/
theorem isBlankText_eq_of_visible?
    {name : Option String}
    (hName : visible? name = name) :
    ∀ seen ∈ name, Text.isBlankText seen = false := by
  intro seen hSeen
  rw [← hName] at hSeen
  simpa using (Option.filter_eq_some_iff.mp hSeen).2

/- A request that is left as it is is in form. -/
theorem isInForm_of_normalized
    {directive : Directive}
    (hNormal : directive.normalized = directive)
    (hPath : directive.path ≠ "") :
    directive.IsInForm where
  path_ne := hPath
  path_eq := congrArg Directive.path hNormal
  otherName :=
    isBlankText_eq_of_visible?
      (congrArg Directive.otherName hNormal)
  member :=
    isBlankText_eq_of_visible? (congrArg Directive.member hNormal)

end Directive

namespace ImportBlock

variable {imports next : ImportBlock}
variable {directive : Directive} {directives : List Directive}

------------------------------------------------------------
-- Finding Requests
------------------------------------------------------------

/- A module is found under every spelling of its path. -/
theorem get?_eq_some_iff
    {path : String} :
    imports.get? path = some directive ↔
      directive ∈ imports.directives ∧
        directive.path = Directive.normalizedPath path :=
  find?_eq_some_iff

------------------------------------------------------------
-- Requests That Stay
------------------------------------------------------------

/- What is kept stays in front when a request is added. -/
theorem prefix_of_add
    (hAdd : imports.add directive = .ok next) :
    imports.directives <+: next.directives := by
  rcases add_eq_ok_iff.mp hAdd with
    ⟨-, ⟨-, rfl⟩ | ⟨-, hNext⟩⟩
  · exact List.prefix_rfl
  · rw [hNext]
    exact List.prefix_append _ _

/- It stays there when requests are added up to one that fails. -/
theorem prefix_extend
    (imports : ImportBlock)
    (directives : List Directive) :
    imports.directives <+:
      (imports.extend directives).1.directives := by
  induction directives generalizing imports with
  | nil => exact List.prefix_rfl
  | cons directive directives ih =>
      rw [extend_cons]
      cases hAdd : imports.add directive with
      | ok next => exact (prefix_of_add hAdd).trans (ih next)
      | error error => exact List.prefix_rfl

/- Requests that can all be added are. -/
theorem extend_eq_of_addAll
    (hAdd : imports.addAll directives = .ok next) :
    imports.extend directives = (next, .ok ()) := by
  unfold addAll at hAdd
  split at hAdd
  · next extended hExtended =>
      rw [hExtended, Except.ok.inj hAdd]
  · cases hAdd

/- What a block keeps stays in front when it is merged. -/
theorem prefix_of_merge
    {other merged : ImportBlock}
    (hMerge : imports.merge other = .ok merged) :
    imports.directives <+: merged.directives := by
  have hPrefix := prefix_extend imports other.directives
  rw [extend_eq_of_addAll hMerge] at hPrefix
  exact hPrefix

/- Where requests fail, those before the first bad one stay. -/
theorem exists_of_extend_error
    {kept : ImportBlock}
    {error : CompileError}
    (hExtend :
      imports.extend directives = (kept, .error error)) :
    ∃ good bad rest,
      directives = good ++ bad :: rest ∧
        imports.extend good = (kept, .ok ()) ∧
        kept.add bad = .error error := by
  induction directives generalizing imports with
  | nil => cases hExtend
  | cons directive directives ih =>
      rw [extend_cons] at hExtend
      cases hAdd : imports.add directive with
      | ok next =>
          rw [hAdd] at hExtend
          rcases ih hExtend with
            ⟨good, bad, rest, rfl, hGood, hBad⟩
          refine ⟨directive :: good, bad, rest, rfl, ?_, hBad⟩
          simpa only [extend_cons, hAdd] using hGood
      | error found =>
          rw [hAdd, Prod.mk.injEq] at hExtend
          rcases hExtend with ⟨rfl, hFound⟩
          exact ⟨[], directive, directives, rfl, rfl,
            hAdd.trans (congrArg _ (Except.error.inj hFound))⟩

------------------------------------------------------------
-- Steps
------------------------------------------------------------

/-
  What can be done with some blocks, which are named by their
  places: a block is made from requests, requests are added to
  one, or two are merged. What is made comes behind all blocks
  that are there.
-/
inductive Step where
  | make (directives : List Directive)
  | add (place : Nat) (directive : Directive)
  | extend (place : Nat) (directives : List Directive)
  | merge (place other : Nat)

/- A block that could be made comes behind all others. -/
def push
    (blocks : List ImportBlock) :
    Except CompileError ImportBlock →
      List ImportBlock × Except CompileError Unit
  | .ok block => (blocks ++ [block], .ok ())
  | .error error => (blocks, .error error)

/-
  The blocks after a step, and how it ended. A step that names
  no block does nothing.
-/
def Step.apply
    (blocks : List ImportBlock) :
    Step → List ImportBlock × Except CompileError Unit
  | .make directives => push blocks (ofDirectives directives)
  | .add place directive =>
      match blocks[place]? with
      | none => (blocks, .ok ())
      | some imports =>
          let asked := imports.ask directive
          (blocks.set place asked.1, asked.2)
  | .extend place directives =>
      match blocks[place]? with
      | none => (blocks, .ok ())
      | some imports =>
          let extended := imports.extend directives
          (blocks.set place extended.1, extended.2)
  | .merge place other =>
      match blocks[place]?, blocks[other]? with
      | some imports, some second =>
          push blocks (imports.merge second)
      | _, _ => (blocks, .ok ())

/- The blocks after some steps, whether or not they succeed. -/
def run
    (blocks : List ImportBlock)
    (steps : List Step) : List ImportBlock :=
  steps.foldl (fun blocks step => (step.apply blocks).1) blocks

variable {blocks : List ImportBlock} {place : Nat}

------------------------------------------------------------
-- What Steps Do
------------------------------------------------------------

/-
  What a step makes of some blocks: it leaves them all, adds
  requests to one of them, or puts a new one behind them.
-/
inductive Changes
    (blocks : List ImportBlock) :
    List ImportBlock → Prop where
  | none : Changes blocks blocks
  | extend
      {place : Nat}
      {imports : ImportBlock}
      (hPlace : blocks[place]? = some imports)
      (directives : List Directive) :
      Changes blocks
        (blocks.set place (imports.extend directives).1)
  | make
      {directives : List Directive}
      {block : ImportBlock}
      (hMake : ofDirectives directives = .ok block) :
      Changes blocks (blocks ++ [block])
  | merge
      {imports second merged : ImportBlock}
      (hImports : imports ∈ blocks)
      (hMerge : imports.merge second = .ok merged) :
      Changes blocks (blocks ++ [merged])

/- To ask for a request is to extend a block by it alone. -/
theorem extend_singleton
    (imports : ImportBlock)
    (directive : Directive) :
    imports.extend [directive] = imports.ask directive := by
  rw [extend]
  rcases imports.ask directive with ⟨next, _ | _⟩
  · rfl
  · rfl

/- Every step leaves, extends or makes a block. -/
theorem Step.changes_apply (step : Step) :
    Changes blocks (step.apply blocks).1 := by
  cases step with
  | make directives =>
      cases hMake : ofDirectives directives with
      | ok block =>
          simpa only [apply, push, hMake] using Changes.make hMake
      | error error =>
          simpa only [apply, push, hMake] using Changes.none
  | add place directive =>
      cases hPlace : blocks[place]? with
      | none => simpa only [apply, hPlace] using Changes.none
      | some imports =>
          simpa only [apply, hPlace, extend_singleton] using
            Changes.extend hPlace [directive]
  | extend place directives =>
      cases hPlace : blocks[place]? with
      | none => simpa only [apply, hPlace] using Changes.none
      | some imports =>
          simpa only [apply, hPlace] using
            Changes.extend hPlace directives
  | merge place other =>
      cases hPlace : blocks[place]? with
      | none => simpa only [apply, hPlace] using Changes.none
      | some imports =>
          cases hOther : blocks[other]? with
          | none =>
              simpa only [apply, hPlace, hOther] using
                Changes.none
          | some second =>
              have hMem := List.mem_of_getElem? hPlace
              cases hMerge : imports.merge second with
              | ok merged =>
                  simpa only [apply, push, hPlace, hOther, hMerge]
                    using Changes.merge hMem hMerge
              | error error =>
                  simpa only [apply, push, hPlace, hOther, hMerge]
                    using Changes.none

/- Blocks stay normal. -/
theorem Changes.isNormal
    {after : List ImportBlock}
    (hChanges : Changes blocks after)
    (hNormal : ∀ imports ∈ blocks, imports.IsNormal) :
    ∀ imports ∈ after, imports.IsNormal := by
  intro block hBlock
  cases hChanges with
  | none => exact hNormal block hBlock
  | extend hPlace directives =>
      rcases List.mem_or_eq_of_mem_set hBlock with hMem | rfl
      · exact hNormal block hMem
      · exact isNormal_extend
          (hNormal _ (List.mem_of_getElem? hPlace)) directives
  | make hMake =>
      rcases List.mem_append.mp hBlock with hMem | hNew
      · exact hNormal block hMem
      · rw [List.mem_singleton.mp hNew]
        exact isNormal_of_addAll isNormal_empty hMake
  | merge hImports hMerge =>
      rcases List.mem_append.mp hBlock with hMem | hNew
      · exact hNormal block hMem
      · rw [List.mem_singleton.mp hNew]
        exact isNormal_of_addAll (hNormal _ hImports) hMerge

/- A block stays in its place, with its requests in front. -/
theorem Changes.exists_prefix
    {after : List ImportBlock}
    (hChanges : Changes blocks after)
    (hPlace : blocks[place]? = some imports) :
    ∃ later,
      after[place]? = some later ∧
        imports.directives <+: later.directives := by
  have hLt : place < blocks.length :=
    (List.getElem?_eq_some_iff.mp hPlace).1
  cases hChanges with
  | none => exact ⟨imports, hPlace, List.prefix_rfl⟩
  | @extend other extended hOther directives =>
      by_cases hSame : other = place
      · subst hSame
        have hEq : extended = imports :=
          Option.some_inj.mp (hOther.symm.trans hPlace)
        subst hEq
        exact ⟨_, List.getElem?_set_self hLt,
          prefix_extend extended directives⟩
      · rw [List.getElem?_set_ne hSame]
        exact ⟨imports, hPlace, List.prefix_rfl⟩
  | make =>
      rw [List.getElem?_append_left hLt]
      exact ⟨imports, hPlace, List.prefix_rfl⟩
  | merge =>
      rw [List.getElem?_append_left hLt]
      exact ⟨imports, hPlace, List.prefix_rfl⟩

------------------------------------------------------------
-- Runs
------------------------------------------------------------

/- Whatever is done with normal blocks makes normal blocks. -/
theorem isNormal_run
    (hNormal : ∀ imports ∈ blocks, imports.IsNormal)
    (steps : List Step) :
    ∀ imports ∈ run blocks steps, imports.IsNormal := by
  induction steps generalizing blocks with
  | nil => exact hNormal
  | cons step steps ih =>
      exact ih (step.changes_apply.isNormal hNormal)

/- What a block keeps stays in front, whatever is done. -/
theorem exists_prefix_run
    (hPlace : blocks[place]? = some imports)
    (steps : List Step) :
    ∃ later,
      (run blocks steps)[place]? = some later ∧
        imports.directives <+: later.directives := by
  induction steps generalizing blocks imports with
  | nil => exact ⟨imports, hPlace, List.prefix_rfl⟩
  | cons step steps ih =>
      rcases step.changes_apply.exists_prefix hPlace with
        ⟨middle, hMiddle, hFirst⟩
      rcases ih hMiddle with ⟨later, hLater, hRest⟩
      exact ⟨later, hLater, hFirst.trans hRest⟩

/-
  A request that cannot be added leaves all blocks alone: the
  block that was asked is put back as it was.
-/
theorem Step.apply_add_error
    {after : List ImportBlock}
    {error : CompileError}
    (hApply :
      (Step.add place directive).apply blocks =
        (after, .error error)) :
    after = blocks := by
  simp only [apply] at hApply
  split at hApply
  · cases hApply
  · next imports hPlace =>
      rcases Prod.mk.inj hApply with ⟨rfl, hError⟩
      rcases imports.ask_cases directive with
        ⟨next, hAsk, -⟩ | ⟨other, hAsk, -⟩
      · rw [hAsk] at hError
        cases hError
      · rw [hAsk]
        rcases List.getElem?_eq_some_iff.mp hPlace with
          ⟨hLt, rfl⟩
        exact List.set_getElem_self hLt

/-
  Of requests that cannot all be added, those in front of the
  first bad one are.
-/
theorem Step.apply_extend_error
    {after : List ImportBlock}
    {error : CompileError}
    (hApply :
      (Step.extend place directives).apply blocks =
        (after, .error error)) :
    ∃ imports good bad rest kept,
      blocks[place]? = some imports ∧
        directives = good ++ bad :: rest ∧
        imports.extend good = (kept, .ok ()) ∧
        kept.add bad = .error error ∧
        after = blocks.set place kept := by
  simp only [apply] at hApply
  split at hApply
  · cases hApply
  · next imports hPlace =>
      rcases Prod.mk.inj hApply with ⟨rfl, hError⟩
      rcases exists_of_extend_error (Prod.ext rfl hError) with
        ⟨good, bad, rest, hSplit, hGood, hBad⟩
      exact ⟨imports, good, bad, rest, _, hPlace, hSplit, hGood,
        hBad, rfl⟩

/-
  Whatever is done, and whether or not it succeeds, every
  block has one request for every module, in its normal form
  and found under every spelling of its path. What a block
  keeps stays in its place for good, also when the block is
  merged with another. A request that fails changes nothing,
  and of several the ones in front of it are kept.
-/
theorem run_keeps_requests (steps : List Step) :
    let blocks := run [] steps
    (∀ imports ∈ blocks,
      (imports.directives.map Directive.path).Nodup ∧
        (∀ kept ∈ imports.directives, kept.IsInForm) ∧
        (∀ path kept,
          imports.find? path = some kept ↔
            kept ∈ imports.directives ∧ kept.path = path) ∧
        ∀ path spelling,
          Directive.normalizedPath spelling =
              Directive.normalizedPath path →
            (∀ kept,
              imports.get? spelling = some kept ↔
                kept ∈ imports.directives ∧
                  kept.path = Directive.normalizedPath path) ∧
              ((imports.get? spelling).isSome ↔
                ∃ kept ∈ imports.directives,
                  kept.path = Directive.normalizedPath path)) ∧
      (∀ (place : Nat) (imports : ImportBlock) more,
        blocks[place]? = some imports →
          ∃ later : ImportBlock,
            (run blocks more)[place]? = some later ∧
              imports.directives <+: later.directives) ∧
      (∀ imports ∈ blocks, ∀ other ∈ blocks, ∀ merged,
        imports.merge other = .ok merged →
          imports.directives <+: merged.directives) ∧
      (∀ place directive after error,
        (Step.add place directive).apply blocks =
            (after, .error error) →
          after = blocks) ∧
      ∀ place directives after error,
        (Step.extend place directives).apply blocks =
            (after, .error error) →
          ∃ imports good bad rest kept,
            blocks[place]? = some imports ∧
              directives = good ++ bad :: rest ∧
              imports.extend good = (kept, .ok ()) ∧
              kept.add bad = .error error ∧
              after = blocks.set place kept := by
  intro blocks
  have hNormal : ∀ imports ∈ blocks, imports.IsNormal :=
    isNormal_run (by simp) steps
  refine ⟨?_, ?_, ?_, ?_, ?_⟩
  · intro imports hImports
    have hBlock := hNormal imports hImports
    refine ⟨imports.nodup_paths, ?_, ?_, ?_⟩
    · intro kept hKept
      exact Directive.isInForm_of_normalized
        (hBlock.normal kept hKept) (hBlock.path_ne kept hKept)
    · intro path kept
      exact find?_eq_some_iff
    · intro path spelling hSame
      have hFound (kept : Directive) :
          imports.get? spelling = some kept ↔
            kept ∈ imports.directives ∧
              kept.path = Directive.normalizedPath path :=
        hSame ▸ get?_eq_some_iff
      refine ⟨hFound, ?_⟩
      rw [Option.isSome_iff_exists]
      exact exists_congr hFound
  · intro place imports more hPlace
    exact exists_prefix_run hPlace more
  · intro imports _ other _ merged hMerge
    exact prefix_of_merge hMerge
  · intro place directive after error hApply
    exact Step.apply_add_error hApply
  · intro place directives after error hApply
    exact Step.apply_extend_error hApply

/-
  A history with steps that fail: a request for a module that
  is there, requests of which the second has no module, and a
  merger of blocks that disagree.
-/
theorem run_of_failing_steps :
    let steps : List Step :=
      [.make [.whole " torch/nn "],
        .add 0 (.aliased "torch\\nn" "nn"),
        .extend 0
          [.aliased "numpy" "\t", .whole "  ", .whole "os"],
        .make [.aliased "numpy" "np"],
        .merge 0 1]
    let kept : ImportBlock :=
      listing [.whole "torch.nn", .whole "numpy"] (by decide)
    let other : ImportBlock :=
      listing [.aliased "numpy" "np"] (by decide)
    run [] steps = [kept, other] ∧
      (∀ request ∈ kept.directives, request.IsInForm) ∧
      kept.get? "\u00A0torch/nn" = some (.whole "torch.nn") ∧
      ∃ later,
        (run (run [] steps) [.add 0 (.whole "os")])[0]? =
            some later ∧
          kept.directives <+: later.directives := by
  intro steps kept other
  have hRun : run [] steps = [kept, other] := by
    decide +kernel
  have hKeeps := run_keeps_requests steps
  rw [hRun] at hKeeps ⊢
  rcases hKeeps with ⟨hBlocks, hStays, -⟩
  rcases hBlocks kept List.mem_cons_self with
    ⟨-, hForm, -, hFound⟩
  refine ⟨rfl, hForm, ?_, hStays 0 kept _ rfl⟩
  exact ((hFound "torch.nn" "\u00A0torch/nn"
    (by decide +kernel)).1 _).mpr
    ⟨List.mem_cons_self, by decide +kernel⟩

end ImportBlock

end PipelineScript
